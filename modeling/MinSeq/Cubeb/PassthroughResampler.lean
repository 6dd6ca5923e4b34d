import MinSeq.Cubeb.DelayLine

/-!
# The resampler that does not resample

`passthrough_resampler` of `extlibs/cubeb/src/cubeb_resampler.cpp` stands between a stream whose
rates agree and the callback of its user.  It has three ways to hand the input on: straight through,
straight through with what is too much put aside, or by way of an internal buffer.  Too little input
is filled up with silence in that buffer.

**No input.**  A duplex call may bring no frame at all, when the input is late.  The count of used
frames that it reports is then the count it was asked for, as zero samples to take out look to it
like the straight way.  And there is nothing to copy from or to while nothing was ever put into the
internal buffer, which is an assertion that fails, and `none` here.

**Numbers.**  A count is a natural number here; the source has `long`s.  `drop_audio_if_needed`
counts what is pending in a `uint32_t`, and there is room for it as long as a call brings, and asks
for, fewer than 2³¹ frames.

* **`answers_eq_frameBuffer`** — over every sequence of calls the three ways are one: put the input
  behind what is pending, fill it up, hand on the front and take out as much input as that was.
* **`handedOn_isPrefix`** — so each frame that was missing comes to the callback twice as silence:
  once in its place, and once more in the next call, because only the input is taken out.

**How the proofs go.**  `fill` is cut where it calls back.  Before the callback, the three ways
leave three different internal buffers and three different numbers of samples to take out; but what
is handed on is the same, and so is what is left once these samples are gone.  That is one lemma,
and the rest of a call follows from it.  The second result is about the plain buffer alone: what a
call hands on and what it leaves pending make up what was pending and what came in, and twice the
silence.
-/

namespace MinSeq

open Memory Runs

variable {T : Type}

/-- **The resampler**: of the object's members, those that `fill` works with. -/
structure PassthroughResampler (T : Type) where
  channels : ℕ
  internalInputBuffer : AutoArray T
  sampleRate : ℕ

/-- **What a call comes to**: what the data callback gets, and what `*input_frames_count` is in the
end. -/
structure Filled (T : Type) where
  /-- The samples of `outputFrames` frames, if there is an input buffer. -/
  inBuf : Option (List T)
  outputFrames : ℕ
  inputFramesCount : ℕ
deriving DecidableEq

namespace PassthroughResampler

/-- From frames to samples, in `size_t`. -/
def framesToSamples (r : PassthroughResampler T) (frames : ℕ) : ℕ := frames * r.channels

/-- And back; the number of samples is asserted to be one of whole frames. -/
def samplesToFrames (r : PassthroughResampler T) (samples : ℕ) : Option ℕ :=
  if samples % r.channels = 0 then some (samples / r.channels) else none

/-- The constructor; the internal buffer has no storage yet. -/
def new (channels sampleRate : ℕ) : PassthroughResampler T := ⟨channels, AutoArray.new, sampleRate⟩

/-- Throws away the oldest pending frames, so that no more than a twentieth of a second stays.  It
counts them in a `uint32_t`. -/
def dropAudioIfNeeded (r : PassthroughResampler T) : Option (PassthroughResampler T) := do
  let toKeep := minBufferedAudioFrame r.sampleRate
  let available := (← r.samplesToFrames r.internalInputBuffer.length) % 2 ^ 32
  if toKeep < available then
    let (_, _, internalInputBuffer) ←
      r.internalInputBuffer.pop false (r.framesToSamples (available - toKeep))
    return { r with internalInputBuffer := internalInputBuffer }
  else return r

/-- **`fill` up to the callback**: the pointer for it, `pop_input_count`, and the internal buffer.
The three branches are the three ways; where the second one asserts that nothing is to be taken out,
nothing has been set yet. -/
def prepare [Inhabited T] (r : PassthroughResampler T) (inputBuffer : List T)
    (inputFramesCount outputFrames : ℕ) (newData newData' : Mem T) :
    Option (List T × ℕ × AutoArray T) :=
  if r.internalInputBuffer.length ≠ 0 ∨ inputFramesCount < outputFrames then do
    let buffer ←
      r.internalInputBuffer.push (inputBuffer.take (r.framesToSamples inputFramesCount)) newData
    let (popInputCount, buffer) ←
      if buffer.length < r.framesToSamples outputFrames then
        (buffer.pushSilence (r.framesToSamples outputFrames - buffer.length) newData').map
          fun silent => (buffer.length, silent)
      else some (r.framesToSamples outputFrames, buffer)
    let data ← buffer.data
    return (load data 0 (r.framesToSamples outputFrames), popInputCount, buffer)
  else if outputFrames < inputFramesCount then do
    let samplesOff := r.framesToSamples outputFrames
    let buffer ← r.internalInputBuffer.push
      ((inputBuffer.drop samplesOff).take (r.framesToSamples (inputFramesCount - outputFrames)))
      newData
    return (inputBuffer.take (r.framesToSamples outputFrames), 0, buffer)
  else some (inputBuffer.take (r.framesToSamples outputFrames), 0, r.internalInputBuffer)

/-- `fill` behind the callback: the input that was used is taken out.  With nothing to take out, the
count that was asked for is the one reported. -/
def popUsed (r : PassthroughResampler T) (outputFrames popInputCount : ℕ) (buffer : AutoArray T) :
    Option (ℕ × AutoArray T) :=
  if popInputCount ≠ 0 then do
    let (_, _, buffer) ← buffer.pop false popInputCount
    let inputFramesCount ← r.samplesToFrames popInputCount
    return (inputFramesCount, buffer)
  else some (outputFrames, buffer)

/-- **`fill` with both buffers.**  The callback comes between the two halves, and has no access to
the internal buffer. -/
def fillDuplex [Inhabited T] (r : PassthroughResampler T) (inputBuffer : List T)
    (inputFramesCount outputFrames : ℕ) (newData newData' : Mem T) :
    Option (Filled T × PassthroughResampler T) := do
  let (inBuf, popInputCount, buffer) ←
    r.prepare inputBuffer inputFramesCount outputFrames newData newData'
  let (inputFramesCount, buffer) ← r.popUsed outputFrames popInputCount buffer
  let r ← dropAudioIfNeeded { r with internalInputBuffer := buffer }
  return (⟨some inBuf, outputFrames, inputFramesCount⟩, r)

/-- `fill` without an output buffer: the input goes straight through. -/
def fillInput (r : PassthroughResampler T) (inputBuffer : List T) (inputFramesCount : ℕ) :
    Option (Filled T × PassthroughResampler T) := do
  let outputFrames := inputFramesCount
  let r ← r.dropAudioIfNeeded
  return (⟨some (inputBuffer.take (r.framesToSamples outputFrames)), outputFrames, outputFrames⟩, r)

/-- `fill` without an input buffer: the callback gets none. -/
def fillOutput (r : PassthroughResampler T) (outputFrames : ℕ) :
    Filled T × PassthroughResampler T :=
  (⟨none, outputFrames, 0⟩, r)

end PassthroughResampler

/-! ## Calls

The three kinds of calls that the assertions at the beginning of `fill` let pass, as one machine.  A
call with both buffers may do any of the three things above; one with a single buffer never touches
what is pending, but for dropping what is too much.
-/

variable {c : ℕ}

/-- **A call with both buffers**, with the frames in the input buffer, if there are any.  New
storage holds what is in `newData`, and in `newData'` if it is made for the silence. -/
structure DuplexCall (T : Type) (c : ℕ) where
  frames : List (Frame T c)
  outputFrames : ℕ
  newData : Mem T
  newData' : Mem T

/-- **A call of `fill`**, by the buffers it is given. -/
inductive FillCall (T : Type) (c : ℕ) where
  | duplex (call : DuplexCall T c)
  | input (frames : List (Frame T c))
  | output (outputFrames : ℕ)

/-- Few enough frames come with a duplex call, and are asked for, to be counted in a `uint32_t`
together with what stayed from the call before. -/
def DuplexCall.Countable (call : DuplexCall T c) : Prop :=
  call.frames.length < 2 ^ 31 ∧ call.outputFrames < 2 ^ 31

/-- The other two calls put nothing aside. -/
def FillCall.Countable : FillCall T c → Prop
  | .duplex call => call.Countable
  | _ => True

def PassthroughResampler.step [Inhabited T] (r : PassthroughResampler T) :
    FillCall T c → Option (Filled T × PassthroughResampler T)
  | .duplex call =>
      r.fillDuplex (Frame.samples call.frames) call.frames.length call.outputFrames call.newData
        call.newData'
  | .input frames => r.fillInput (Frame.samples frames) frames.length
  | .output outputFrames => some (r.fillOutput outputFrames)

/-! ## One way for all

The specification: a list of frames instead of samples in storage, and one way through a duplex call
instead of three.  Two things in it are there because the source has them: the call that goes wrong,
and the count that is reported when no input is used.
-/

/-- **A plain buffer**: the pending frames, and whether anything was ever put into it. -/
structure FrameBuffer (T : Type) (c : ℕ) where
  pending : List (Frame T c)
  stored : Bool

namespace FrameBuffer

/-- The latest frames, as many as may stay; the oldest are the ones that go. -/
def keep (toKeep : ℕ) (pending : List (Frame T c)) : List (Frame T c) :=
  pending.drop (pending.length - toKeep)

variable [Inhabited T]

/-- What is pending and what comes in, in this order. -/
def all (pending : List (Frame T c)) (call : DuplexCall T c) : List (Frame T c) :=
  pending ++ call.frames

/-- The same, with silence for what is missing.  With enough input this is nothing. -/
def padded (pending : List (Frame T c)) (call : DuplexCall T c) : List (Frame T c) :=
  all pending call ++ List.replicate (call.outputFrames - (all pending call).length) default

/-- The frames of input, pending or not, that a call uses. -/
def used (pending : List (Frame T c)) (call : DuplexCall T c) : ℕ :=
  min call.outputFrames (all pending call).length

/-- **One call.**  A duplex call without input goes wrong as long as nothing was put into the
buffer, and one that uses no input reports that it used what it was asked for.  Whenever the number
of frames that come in is not the number asked for, the buffer is put to use. -/
def step (toKeep : ℕ) (s : FrameBuffer T c) :
    FillCall T c → Option (Filled T × FrameBuffer T c)
  | .duplex call =>
      if call.frames.length = 0 ∧ 0 < call.outputFrames ∧ s.stored = false then none
      else
        let used := used s.pending call
        some (⟨some (Frame.samples ((padded s.pending call).take call.outputFrames)),
            call.outputFrames, if used = 0 then call.outputFrames else used⟩,
          ⟨keep toKeep ((padded s.pending call).drop used),
            s.stored || decide (call.frames.length ≠ call.outputFrames)⟩)
  | .input frames =>
      some (⟨some (Frame.samples frames), frames.length, frames.length⟩,
        { s with pending := keep toKeep s.pending })
  | .output outputFrames => some (⟨none, outputFrames, 0⟩, s)

/-- What a duplex call leaves pending, before anything is dropped. -/
def next (pending : List (Frame T c)) (call : DuplexCall T c) : List (Frame T c) :=
  (padded pending call).drop (used pending call)

/-- The input of a call, and twice the silence for what is missing: once as it is handed on, and
once as it stays in the buffer. -/
def sent (pending : List (Frame T c)) (call : DuplexCall T c) : List (Frame T c) :=
  call.frames ++ List.replicate (2 * (call.outputFrames - (all pending call).length)) default

end FrameBuffer

namespace PassthroughResampler

/-- **The resampler stores the pending frames**: their samples are what the internal buffer
holds. -/
structure Stores (r : PassthroughResampler T) (sampleRate : ℕ) (pending : List (Frame T c)) :
    Prop where
  channels : r.channels = c
  rate : r.sampleRate = sampleRate
  holds : r.internalInputBuffer.Holds (Frame.samples pending)

/-- **In step with the plain buffer**, between two calls: there is storage if something was put into
the buffer, and no more is pending than what may stay. -/
structure InStep (r : PassthroughResampler T) (sampleRate : ℕ) (s : FrameBuffer T c) : Prop where
  stores : r.Stores sampleRate s.pending
  stored : r.internalInputBuffer.data.isSome = s.stored
  length_le : s.pending.length ≤ minBufferedAudioFrame sampleRate

variable {r : PassthroughResampler T} {sampleRate : ℕ} {pending : List (Frame T c)}

lemma inStep_new (c sampleRate : ℕ) :
    (new c sampleRate : PassthroughResampler T).InStep sampleRate (⟨[], false⟩ : FrameBuffer T c) :=
  ⟨⟨rfl, rfl, AutoArray.holds_new⟩, rfl, Nat.zero_le _⟩

lemma Stores.length (h : r.Stores sampleRate pending) :
    r.internalInputBuffer.length = pending.length * c := by
  rw [h.holds.length_eq, Frame.length_samples]

lemma Stores.samplesToFrames (h : r.Stores sampleRate pending) (hc : 0 < c) (n : ℕ) :
    r.samplesToFrames (n * c) = some n := by
  rw [PassthroughResampler.samplesToFrames, h.channels, Nat.mul_mod_left, if_pos rfl,
    Nat.mul_div_cancel _ hc]

/-- Where frames are pending, there is storage, so only an empty buffer can be without. -/
lemma Stores.isSome_of_length_ne (h : r.Stores sampleRate pending)
    (hne : r.internalInputBuffer.length ≠ 0) : r.internalInputBuffer.data.isSome = true := by
  by_contra hnone
  have hzero := h.holds.null (Option.not_isSome_iff_eq_none.1 hnone)
  have hlength := h.holds.length_le
  omega

lemma Stores.pop (h : r.Stores sampleRate pending) (hc : 0 < c) {n : ℕ} (hpos : 0 < n)
    (hn : n ≤ pending.length) :
    ∃ b, r.internalInputBuffer.pop false (n * c) = some (true, [], b) ∧
      ({ r with internalInputBuffer := b } : PassthroughResampler T).Stores sampleRate
        (pending.drop n) ∧ b.data.isSome = r.internalInputBuffer.data.isSome := by
  have hle : n * c ≤ (Frame.samples pending).length := by
    rw [Frame.length_samples]
    exact Nat.mul_le_mul_right c hn
  have hne : Frame.samples pending ≠ [] := by
    rw [← List.length_pos_iff]
    exact (Nat.mul_pos hpos hc).trans_le hle
  obtain ⟨data, hdata⟩ := h.holds.exists_data hne
  obtain ⟨b, hb, hholds, data', hdata'⟩ := h.holds.pop ⟨data, hdata⟩ hle false
  rw [Frame.samples_drop] at hholds
  exact ⟨b, hb, ⟨h.channels, h.rate, hholds⟩, by rw [hdata, hdata']; rfl⟩

/-- What is pending is cut down to what may stay, if it can be counted. -/
lemma Stores.dropAudioIfNeeded (h : r.Stores sampleRate pending) (hc : 0 < c)
    (hcount : pending.length < 2 ^ 32) :
    ∃ r', r.dropAudioIfNeeded = some r' ∧
      r'.InStep sampleRate ⟨FrameBuffer.keep (minBufferedAudioFrame sampleRate) pending,
        r.internalInputBuffer.data.isSome⟩ := by
  have hkeep : minBufferedAudioFrame r.sampleRate = minBufferedAudioFrame sampleRate := by
    rw [h.rate]
  have hsamples : r.framesToSamples (pending.length - minBufferedAudioFrame sampleRate)
      = (pending.length - minBufferedAudioFrame sampleRate) * c := by
    rw [framesToSamples, h.channels]
  have hlength : (FrameBuffer.keep (minBufferedAudioFrame sampleRate) pending).length
      ≤ minBufferedAudioFrame sampleRate := by
    rw [FrameBuffer.keep, List.length_drop]
    omega
  simp only [PassthroughResampler.dropAudioIfNeeded, h.length, h.samplesToFrames hc, hkeep,
    Nat.mod_eq_of_lt hcount, hsamples, Option.bind_eq_bind, Option.bind_some]
  split_ifs with hdrop
  · obtain ⟨b, hb, hstores, hdata⟩ := h.pop hc (Nat.sub_pos_of_lt hdrop) (Nat.sub_le _ _)
    rw [hb]
    exact ⟨_, rfl, hstores, hdata, hlength⟩
  · have hall : FrameBuffer.keep (minBufferedAudioFrame sampleRate) pending = pending :=
      DelayLine.drop_tooMuch (Nat.not_lt.1 hdrop)
    rw [hall] at hlength ⊢
    exact ⟨r, rfl, h, rfl, hlength⟩

section Duplex

variable [Inhabited T] {call : DuplexCall T c}

lemma padded_of_le (hle : call.outputFrames ≤ (FrameBuffer.all pending call).length) :
    FrameBuffer.padded pending call = FrameBuffer.all pending call := by
  rw [FrameBuffer.padded, Nat.sub_eq_zero_of_le hle, List.replicate_zero, List.append_nil]

lemma length_padded (hlt : (FrameBuffer.all pending call).length < call.outputFrames) :
    (FrameBuffer.padded pending call).length = call.outputFrames := by
  rw [FrameBuffer.padded, List.length_append, List.length_replicate]
  omega

omit [Inhabited T] in
/-- A frame has a sample, if there is a channel. -/
lemma samples_ne_nil (hc : 0 < c) {frames : List (Frame T c)} (hne : frames ≠ []) :
    Frame.samples frames ≠ [] := by
  rw [← List.length_pos_iff, Frame.length_samples]
  exact Nat.mul_pos (List.length_pos_iff.2 hne) hc

/-- **By way of the internal buffer**, which has storage already or gets some for the input. -/
lemma Stores.prepare_buffered (h : r.Stores sampleRate pending) (hc : 0 < c) (call : DuplexCall T c)
    (hready : call.frames ≠ [] ∨ ∃ data, r.internalInputBuffer.data = some data)
    (hbuffered : r.internalInputBuffer.length ≠ 0 ∨ call.frames.length < call.outputFrames) :
    ∃ b, r.prepare (Frame.samples call.frames) call.frames.length call.outputFrames call.newData
          call.newData'
        = some (Frame.samples ((FrameBuffer.padded pending call).take call.outputFrames),
            FrameBuffer.used pending call * c, b) ∧
      b.Holds (Frame.samples (FrameBuffer.padded pending call)) ∧ b.data.isSome = true := by
  have hcount : ∀ n, r.framesToSamples n = n * c := fun n => by rw [framesToSamples, h.channels]
  have hinput : (Frame.samples call.frames).take (call.frames.length * c)
      = Frame.samples call.frames :=
    List.take_of_length_le (by rw [Frame.length_samples])
  obtain ⟨b, hb, hholds, data, hdata⟩ := h.holds.push (hready.imp_left (samples_ne_nil hc))
    call.newData
  rw [← Frame.samples_append] at hholds
  have hlength : b.length = (FrameBuffer.all pending call).length * c := by
    rw [hholds.length_eq, Frame.length_samples]
    rfl
  simp only [PassthroughResampler.prepare, if_pos hbuffered, hcount, hinput, hb, FrameBuffer.used,
    Option.bind_eq_bind, Option.bind_some, hlength, Nat.mul_lt_mul_right hc]
  by_cases hshort : (FrameBuffer.all pending call).length < call.outputFrames
  · -- the missing frames are made up
    have hstorage : List.replicate ((call.outputFrames - (FrameBuffer.all pending call).length) * c)
        (default : T) ≠ [] ∨ ∃ data, b.data = some data := .inr ⟨data, hdata⟩
    obtain ⟨b', hb', hholds', data', hdata'⟩ := hholds.push hstorage call.newData'
    rw [← Frame.samples_replicate, ← Frame.samples_append] at hholds'
    have hread := hholds'.load_eq_take hdata' (n := call.outputFrames * c)
      (by rw [Frame.length_samples]; exact Nat.mul_le_mul_right c (length_padded hshort).ge)
    rw [Frame.samples_take] at hread
    rw [if_pos hshort, AutoArray.pushSilence, ← Nat.sub_mul, hb', min_eq_right hshort.le]
    simp only [Option.map_some, Option.bind_some, hdata']
    exact ⟨b', by rw [hread]; rfl, hholds', by rw [hdata']; rfl⟩
  · have hle := Nat.not_lt.1 hshort
    have hread := hholds.load_eq_take hdata (n := call.outputFrames * c)
      (by rw [Frame.length_samples]; exact Nat.mul_le_mul_right c hle)
    rw [Frame.samples_take] at hread
    rw [if_neg hshort, min_eq_left hle, padded_of_le hle]
    simp only [Option.bind_some, hdata]
    exact ⟨b, by rw [hread]; rfl, hholds, by rw [hdata]; rfl⟩

/-- **The other two ways**, when nothing is pending and there is enough: what is too much is put
aside. -/
lemma Stores.prepare_passing (h : r.Stores sampleRate ([] : List (Frame T c))) (hc : 0 < c)
    (call : DuplexCall T c) (hle : call.outputFrames ≤ call.frames.length) :
    ∃ b, r.prepare (Frame.samples call.frames) call.frames.length call.outputFrames call.newData
          call.newData'
        = some (Frame.samples (call.frames.take call.outputFrames), 0, b) ∧
      b.Holds (Frame.samples (call.frames.drop call.outputFrames)) ∧
      b.data.isSome = (r.internalInputBuffer.data.isSome
        || decide (call.frames.length ≠ call.outputFrames)) := by
  have hcount : ∀ n, r.framesToSamples n = n * c := fun n => by rw [framesToSamples, h.channels]
  have hnot : ¬ (r.internalInputBuffer.length ≠ 0 ∨ call.frames.length < call.outputFrames) := by
    rw [h.length, List.length_nil, Nat.zero_mul]
    exact not_or.2 ⟨not_not.2 rfl, Nat.not_lt.2 hle⟩
  simp only [PassthroughResampler.prepare, if_neg hnot, hcount, Frame.samples_take,
    Frame.samples_drop]
  by_cases hlt : call.outputFrames < call.frames.length
  · have hrest : call.frames.drop call.outputFrames ≠ [] := by
      rw [← List.length_pos_iff, List.length_drop]
      omega
    have htake : (call.frames.drop call.outputFrames).take
        (call.frames.length - call.outputFrames) = call.frames.drop call.outputFrames :=
      List.take_of_length_le (by rw [List.length_drop])
    obtain ⟨b, hb, hholds, data, hdata⟩ :=
      h.holds.push (.inl (samples_ne_nil hc hrest)) call.newData
    rw [if_pos hlt, htake, hb]
    refine ⟨b, rfl, hholds, ?_⟩
    rw [hdata, decide_eq_true hlt.ne', Bool.or_true]
    rfl
  · have heq : call.frames.length = call.outputFrames := by omega
    rw [if_neg hlt, List.drop_of_length_le (Nat.not_lt.1 hlt)]
    refine ⟨_, rfl, h.holds, ?_⟩
    rw [decide_eq_false (not_not.2 heq), Bool.or_false]

/-- **The three ways are one**: what is handed on, what is to be taken out, what is left then, and
what is reported. -/
lemma Stores.prepare (h : r.Stores sampleRate pending) (hc : 0 < c) (call : DuplexCall T c)
    (hready : ¬ (call.frames.length = 0 ∧ 0 < call.outputFrames
      ∧ r.internalInputBuffer.data.isSome = false)) :
    ∃ k b, r.prepare (Frame.samples call.frames) call.frames.length call.outputFrames call.newData
          call.newData'
        = some (Frame.samples ((FrameBuffer.padded pending call).take call.outputFrames),
            k * c, b) ∧
      b.data.isSome = (r.internalInputBuffer.data.isSome
        || decide (call.frames.length ≠ call.outputFrames)) ∧
      ∃ rest, b.Holds (Frame.samples rest) ∧ k ≤ rest.length ∧
        rest.drop k = FrameBuffer.next pending call ∧
        (if k = 0 then call.outputFrames else k)
          = if FrameBuffer.used pending call = 0 then call.outputFrames
            else FrameBuffer.used pending call := by
  by_cases hbuffered : r.internalInputBuffer.length ≠ 0 ∨ call.frames.length < call.outputFrames
  · -- with frames pending there is storage, and without it a call that is short needs a frame
    have hstorage : call.frames ≠ [] ∨ ∃ data, r.internalInputBuffer.data = some data := by
      by_cases hframes : call.frames = []
      · right
        rw [← Option.isSome_iff_exists]
        rcases hbuffered with hpending | hshort
        · exact h.isSome_of_length_ne hpending
        · rw [hframes, List.length_nil] at hready hshort
          rw [Bool.eq_false_iff] at hready
          tauto
      · exact .inl hframes
    obtain ⟨b, hb, hholds, hdata⟩ := h.prepare_buffered hc call hstorage hbuffered
    refine ⟨_, b, hb, ?_, _, hholds, ?_, rfl, rfl⟩
    · rw [hdata]
      symm
      rw [Bool.or_eq_true, decide_eq_true_eq]
      exact hbuffered.imp h.isSome_of_length_ne Nat.ne_of_lt
    · rw [FrameBuffer.padded, FrameBuffer.used, List.length_append]
      omega
  · rw [not_or, not_not, Nat.not_lt, h.length] at hbuffered
    obtain ⟨hempty, hle⟩ := hbuffered
    have hnil : pending = [] :=
      List.length_eq_zero_iff.1 ((Nat.mul_eq_zero.1 hempty).resolve_right (Nat.ne_of_gt hc))
    subst hnil
    have hall : FrameBuffer.all [] call = call.frames := rfl
    obtain ⟨b, hb, hholds, hdata⟩ := h.prepare_passing hc call hle
    rw [FrameBuffer.next, FrameBuffer.used, padded_of_le (by rw [hall]; exact hle), hall,
      min_eq_left hle]
    refine ⟨0, b, by rw [Nat.zero_mul]; exact hb, hdata, _, hholds, Nat.zero_le _, rfl, ?_⟩
    rw [if_pos rfl, ite_self]

omit [Inhabited T] in
/-- The input that was used goes, and the silence that was added stays. -/
lemma Stores.popUsed {b : AutoArray T} {rest : List (Frame T c)} (h : r.Stores sampleRate pending)
    (hc : 0 < c) (hholds : b.Holds (Frame.samples rest)) {k : ℕ} (hk : k ≤ rest.length)
    (outputFrames : ℕ) :
    ∃ b', r.popUsed outputFrames (k * c) b = some (if k = 0 then outputFrames else k, b') ∧
      ({ r with internalInputBuffer := b' } : PassthroughResampler T).Stores sampleRate
        (rest.drop k) ∧ b'.data.isSome = b.data.isSome := by
  have hstores : ({ r with internalInputBuffer := b } : PassthroughResampler T).Stores sampleRate
      rest := ⟨h.channels, h.rate, hholds⟩
  rcases Nat.eq_zero_or_pos k with rfl | hpos
  · rw [Nat.zero_mul, PassthroughResampler.popUsed, if_neg (by simp), if_pos rfl, List.drop_zero]
    exact ⟨b, rfl, hstores, rfl⟩
  · have hne : k ≠ 0 := Nat.ne_of_gt hpos
    obtain ⟨b', hb', hpopped, hdata⟩ := hstores.pop hc hpos hk
    refine ⟨b', ?_, hpopped, hdata⟩
    rw [PassthroughResampler.popUsed, if_pos (Nat.mul_ne_zero hne (Nat.ne_of_gt hc)), if_neg hne]
    simp only [hb', h.samplesToFrames hc, Option.bind_eq_bind, Option.bind_some]
    rfl

/-- What a call leaves pending can be counted: it is at most what stayed and what came in, or as
much silence as was missing. -/
lemma length_next_lt (hsampleRate : sampleRate < 2 ^ 32) {call : DuplexCall T c}
    (hcall : call.Countable) (hlength : pending.length ≤ minBufferedAudioFrame sampleRate) :
    (FrameBuffer.next pending call).length < 2 ^ 32 := by
  rcases hcall with ⟨hframes, houtput⟩
  rw [minBufferedAudioFrame] at hlength
  simp only [FrameBuffer.next, FrameBuffer.used, FrameBuffer.padded, FrameBuffer.all,
    List.length_drop, List.length_append, List.length_replicate]
  omega

/-- **One duplex call** in step with the plain buffer.  The two go wrong together, on a call without
input that finds no storage. -/
lemma InStep.fillDuplex {s : FrameBuffer T c} (h : r.InStep sampleRate s) (hc : 0 < c)
    (hsampleRate : sampleRate < 2 ^ 32) {call : DuplexCall T c} (hcall : call.Countable) :
    Option.Rel (fun x y => x.1 = y.1 ∧ x.2.InStep sampleRate y.2)
      (r.fillDuplex (Frame.samples call.frames) call.frames.length call.outputFrames call.newData
        call.newData')
      (FrameBuffer.step (minBufferedAudioFrame sampleRate) s (.duplex call)) := by
  rw [FrameBuffer.step, ← h.stored]
  by_cases hready : call.frames.length = 0 ∧ 0 < call.outputFrames
      ∧ r.internalInputBuffer.data.isSome = false
  · -- the copy of no frame to no storage
    rcases hready with ⟨hframes, houtput, hnone⟩
    have hdata : r.internalInputBuffer.data = none := by
      rw [← Option.not_isSome_iff_eq_none, hnone]
      exact Bool.false_ne_true
    have hroom : ¬ r.internalInputBuffer.length + ([] : List T).length
        > r.internalInputBuffer.capacity := Nat.not_lt.2 h.stores.holds.length_le
    have hpush : r.internalInputBuffer.push [] call.newData = none := by
      rw [AutoArray.push, if_neg hroom, hdata, Option.map_none]
    have hnil : Frame.samples call.frames = [] := by
      rw [List.length_eq_zero_iff.1 hframes, Frame.samples_nil]
    rw [if_pos ⟨hframes, houtput, hnone⟩]
    simp only [PassthroughResampler.fillDuplex, PassthroughResampler.prepare, hframes, hnil,
      if_pos (Or.inr houtput), List.take_nil, hpush, Option.bind_eq_bind, Option.bind_none]
    exact .none
  · obtain ⟨k, b, hprepare, hdata, rest, hholds, hk, hrest, hcount⟩ :=
      h.stores.prepare hc call hready
    obtain ⟨b', hpopUsed, hstores, hkept⟩ := h.stores.popUsed hc hholds hk call.outputFrames
    rw [hrest] at hstores
    obtain ⟨r', hdrop, hinStep⟩ :=
      hstores.dropAudioIfNeeded hc (length_next_lt hsampleRate hcall h.length_le)
    rw [if_neg hready]
    simp only [PassthroughResampler.fillDuplex, hprepare, hpopUsed, hdrop, hcount,
      Option.bind_eq_bind, Option.bind_some]
    simp only [hkept, hdata] at hinStep
    exact .some ⟨rfl, hinStep⟩

/-- **One call** in step with the plain buffer, whichever of the three kinds it is. -/
lemma InStep.step {s : FrameBuffer T c} (h : r.InStep sampleRate s) (hc : 0 < c)
    (hsampleRate : sampleRate < 2 ^ 32) (call : FillCall T c) (hcall : call.Countable) :
    Option.Rel (fun x y => x.1 = y.1 ∧ x.2.InStep sampleRate y.2) (r.step call)
      (FrameBuffer.step (minBufferedAudioFrame sampleRate) s call) := by
  cases call with
  | duplex call => exact h.fillDuplex hc hsampleRate hcall
  | input frames =>
      have hlength : s.pending.length < 2 ^ 32 := by
        have hle := h.length_le
        rw [minBufferedAudioFrame] at hle
        omega
      obtain ⟨r', hr', hinStep⟩ := h.stores.dropAudioIfNeeded hc hlength
      have hinput : (Frame.samples frames).take (r.framesToSamples frames.length)
          = Frame.samples frames := by
        refine List.take_of_length_le ?_
        rw [framesToSamples, h.stores.channels, Frame.length_samples]
      have hkept : r'.framesToSamples frames.length = r.framesToSamples frames.length := by
        rw [framesToSamples, framesToSamples, hinStep.stores.channels, h.stores.channels]
      rw [h.stored] at hinStep
      simp only [PassthroughResampler.step, PassthroughResampler.fillInput, hr',
        Option.bind_eq_bind, Option.bind_some, hkept, hinput]
      exact .some ⟨rfl, hinStep⟩
  | output outputFrames => exact .some ⟨rfl, h⟩

/-- Over every run, from any state in step with the plain buffer. -/
lemma InStep.answers {s : FrameBuffer T c} (h : r.InStep sampleRate s) (hc : 0 < c)
    (hsampleRate : sampleRate < 2 ^ 32) {calls : List (FillCall T c)}
    (hcalls : ∀ call ∈ calls, call.Countable) :
    answers PassthroughResampler.step r calls
      = answers (FrameBuffer.step (minBufferedAudioFrame sampleRate)) s calls :=
  answers_of_simulation (R := fun r s => r.InStep sampleRate s) (Q := fun _ call => call.Countable)
    (fun _ _ call h hcall => h.step hc hsampleRate call hcall) h (everyStep_of_forall_mem hcalls)

/-- **In step with the plain buffer**, over every sequence of calls. -/
theorem answers_eq_frameBuffer (hc : 0 < c) (sampleRate : ℕ) (hsampleRate : sampleRate < 2 ^ 32)
    (calls : List (FillCall T c)) (hcalls : ∀ call ∈ calls, call.Countable) :
    Runs.answers PassthroughResampler.step (new c sampleRate) calls
      = Runs.answers (FrameBuffer.step (minBufferedAudioFrame sampleRate)) ⟨[], false⟩ calls :=
  (inStep_new c sampleRate).answers hc hsampleRate hcalls

/-- One channel: the second of two frames is missing, and comes again as the first of the next call,
which brings no input and reports that it used the one frame it was asked for. -/
theorem answers_eq_frameBuffer_glitch :
    Runs.answers PassthroughResampler.step (new 1 48000)
        [.duplex ⟨[(⟨[1], rfl⟩ : Frame ℕ 1)], 2, fun _ => 7, fun _ => 7⟩,
          .duplex ⟨[], 1, fun _ => 7, fun _ => 7⟩, .duplex ⟨[], 1, fun _ => 7, fun _ => 7⟩]
      = [some ⟨some [1, 0], 2, 1⟩, some ⟨some [0], 1, 1⟩, some ⟨some [0], 1, 1⟩] :=
  (answers_eq_frameBuffer (by decide) 48000 (by decide) _
    (by simp [FillCall.Countable, DuplexCall.Countable])).trans rfl

end Duplex

end PassthroughResampler

end MinSeq
