import MinSeq.Core.CppTypes
import MinSeq.Core.Runs
import MinSeq.Cubeb.RingBuffer

/-!
# The ring buffer in frames

`audio_ring_buffer_base` of `extlibs/cubeb/src/cubeb_ringbuffer.h`.  A frame is one sample for each
channel, and the adapter counts in frames over a `ring_buffer_base` that holds single samples: every
count is multiplied by the number of channels on its way in, and what comes back is divided by it.

Both are done in `int`.  The product of a count and the number of channels may overflow long before
the buffer is full, as a count may ask for more than there is: dropping 2³⁰ frames of a stereo
stream is such a call.  The behaviour is undefined then, and `none` here, so a run stops at such a
call.  The constructor asserts that there is a channel, and its ring buffer that the storage is not
too large for the indices; a failed assertion is `none` as well.

`FrameQueue` says what the adapter is for: a queue of whole frames, with room for a fixed number of
them.

* **`answers_eq_frameQueue`** — over every sequence of calls the adapter answers as the queue of
  frames does, and goes wrong at the same call, if it does.  So a call never splits a frame, and no
  channel ever receives another one's samples.

The two machines are held together by `Stores`: the ring buffer holds the samples of the queued
frames, one frame after the other.  What a single call does then follows from the specifications of
`RingBuffer`, where a count in samples is always a multiple of the number of channels.
-/

namespace MinSeq

open Cpp Memory Runs RingBuffer

variable {T : Type}

/-- The adapter: the number of channels, and the ring buffer of samples underneath. -/
structure AudioRingBuffer (T : Type) where
  channelCount : ℤ
  ringBuffer : RingBuffer T

namespace AudioRingBuffer

/-- From frames to samples, if the product is an `int`. -/
def framesToSamples (a : AudioRingBuffer T) (frames : ℤ) : Option ℤ := mulInt frames a.channelCount

/-- And back; C++ rounds towards zero, but here the division always comes out even. -/
def samplesToFrames (a : AudioRingBuffer T) (samples : ℤ) : ℤ := samples.tdiv a.channelCount

/-- The constructor.  `channel_count` is initialised first, and used for the capacity of the ring
buffer before it is asserted to be positive; the first assertion is that of `ring_buffer_base`. -/
def new (channelCount capacityInFrames : ℤ) (data : Mem T) : Option (AudioRingBuffer T) := do
  let capacity ← mulInt capacityInFrames channelCount
  let ringBuffer := RingBuffer.new capacity data
  if ringBuffer.storageCapacity < intMax / 2 ∧ 0 < ringBuffer.storageCapacity
      ∧ 0 < channelCount then
    return ⟨channelCount, ringBuffer⟩
  else none

/-- `enqueue`, which is `enqueue_default` when there are no `frames`: then as many silent ones are
put in. -/
def enqueue [Inhabited T] (a : AudioRingBuffer T) (frames : Option (List T)) (frameCount : ℤ) :
    Option (ℤ × AudioRingBuffer T) := do
  let count ← a.framesToSamples frameCount
  let r := a.ringBuffer.enqueue frames count
  return (a.samplesToFrames r.1, { a with ringBuffer := r.2 })

/-- `dequeue`; `frames` says whether there is a buffer to copy to, and without one the frames are
thrown away.  It answers their number, and what it leaves in that buffer. -/
def dequeue (a : AudioRingBuffer T) (frames : Bool) (frameCount : ℤ) :
    Option (ℤ × List T × AudioRingBuffer T) := do
  let count ← a.framesToSamples frameCount
  let r := a.ringBuffer.dequeue frames count
  return (a.samplesToFrames r.1, r.2.1, { a with ringBuffer := r.2.2 })

/-- How many frames there are to read. -/
def availableRead (a : AudioRingBuffer T) : ℤ := a.samplesToFrames a.ringBuffer.availableRead

/-- How many frames there is room for.  The comment in the source promises frames for consuming. -/
def availableWrite (a : AudioRingBuffer T) : ℤ := a.samplesToFrames a.ringBuffer.availableWrite

/-- How many frames the buffer holds when it is full. -/
def capacity (a : AudioRingBuffer T) : ℤ := a.samplesToFrames a.ringBuffer.capacity

end AudioRingBuffer

/-! ## Frames

The library passes frames around as a pointer to interleaved samples and a number of frames.  A list
of frames that each have the right number of samples says the same and cannot be cut in the middle
of a frame; `samples` is what the pointer leads to.
-/

/-- One sample for each of `c` channels. -/
abbrev Frame (T : Type) (c : ℕ) := { samples : List T // samples.length = c }

/-- A silent frame: the zero of the sample type in every channel. -/
instance [Inhabited T] {c : ℕ} : Inhabited (Frame T c) :=
  ⟨⟨List.replicate c default, List.length_replicate⟩⟩

namespace Frame

variable {c : ℕ} {frames : List (Frame T c)}

/-- The samples of a run of frames, interleaved as the library stores them. -/
def samples (frames : List (Frame T c)) : List T := frames.flatMap Subtype.val

@[simp] lemma samples_nil : samples ([] : List (Frame T c)) = [] := rfl

@[simp] lemma samples_cons (f : Frame T c) : samples (f :: frames) = f.1 ++ samples frames := rfl

@[simp] lemma samples_append (xs ys : List (Frame T c)) :
    samples (xs ++ ys) = samples xs ++ samples ys := List.flatMap_append

/-- As many samples as the library computes for the number of frames. -/
@[simp] lemma length_samples (frames : List (Frame T c)) :
    (samples frames).length = frames.length * c := by
  induction frames with
  | nil => simp
  | cons f frames ih =>
      rw [samples_cons, List.length_append, ih, f.2, List.length_cons, Nat.succ_mul, Nat.add_comm]

/-- Cutting off a whole number of frames in the samples is cutting off that many frames. -/
lemma samples_take (frames : List (Frame T c)) (k : ℕ) :
    (samples frames).take (k * c) = samples (frames.take k) := by
  induction frames generalizing k with
  | nil => simp
  | cons f frames ih =>
      cases k with
      | zero => simp
      | succ k =>
          have hlong : f.1.length ≤ k * c + c := by rw [f.2]; exact Nat.le_add_left c _
          rw [samples_cons, Nat.succ_mul, List.take_append, List.take_of_length_le hlong, f.2,
            Nat.add_sub_cancel, ih]
          rfl

/-- The same for what is left behind the cut. -/
lemma samples_drop (frames : List (Frame T c)) (k : ℕ) :
    (samples frames).drop (k * c) = samples (frames.drop k) := by
  induction frames generalizing k with
  | nil => simp
  | cons f frames ih =>
      cases k with
      | zero => simp
      | succ k =>
          have hlong : f.1.length ≤ k * c + c := by rw [f.2]; exact Nat.le_add_left c _
          rw [samples_cons, Nat.succ_mul, List.drop_append, List.drop_of_length_le hlong, f.2,
            Nat.add_sub_cancel, ih]
          rfl

/-- Silent frames are silent samples, which is what lets a buffer be filled up sample by sample. -/
lemma samples_replicate [Inhabited T] (k : ℕ) :
    samples (List.replicate k (default : Frame T c)) = List.replicate (k * c) default := by
  induction k with
  | zero => simp
  | succ k ih =>
      rw [List.replicate_succ, samples_cons, ih, Nat.succ_mul, Nat.add_comm,
        List.replicate_add]
      rfl

end Frame

/-! ## A queue of frames -/

/-- A call of a member, in frames.  The counts are not negative; with a negative one the ring buffer
underneath would fail an assertion, unless it has nothing to do. -/
inductive AudioCall (T : Type) (c : ℕ) where
  | enqueue (call : EnqueueCall (Frame T c))
  | dequeue (call : DequeueCall)
  | availableRead
  | availableWrite
  | capacity

variable {c capacity : ℕ}

/-- What a call returns, and what it leaves in the caller's buffer.  It fails if a count of samples
overflows. -/
def AudioRingBuffer.step [Inhabited T] (a : AudioRingBuffer T) :
    AudioCall T c → Option ((ℤ × List T) × AudioRingBuffer T)
  | .enqueue call => do
      let r ← a.enqueue (call.elements.map Frame.samples) call.count
      return ((r.1, []), r.2)
  | .dequeue call => do
      let r ← a.dequeue call.elements call.count
      return ((r.1, r.2.1), r.2.2)
  | .availableRead => some ((a.availableRead, []), a)
  | .availableWrite => some ((a.availableWrite, []), a)
  | .capacity => some ((a.capacity, []), a)

/-- **A queue of whole frames** with room for `capacity` of them: a call puts in as many as fit, or
takes as many as there are.  The samples that a call asks for must be few enough to be counted by an
`int`, even if there are not that many. -/
def FrameQueue.step [Inhabited T] (capacity : ℕ) (queue : List (Frame T c)) :
    AudioCall T c → Option ((ℤ × List T) × List (Frame T c))
  | .enqueue call =>
      let k := min (capacity - queue.length) call.count
      if call.count * c < 2 ^ 31 then some ((k, []), queue ++ call.values.take k) else none
  | .dequeue call =>
      if call.count * c < 2 ^ 31 then
        some (((min queue.length call.count : ℕ),
            if call.elements then Frame.samples (queue.take call.count) else []),
          queue.drop call.count)
      else none
  | .availableRead => some ((queue.length, []), queue)
  | .availableWrite => some (((capacity - queue.length : ℕ), []), queue)
  | .capacity => some ((capacity, []), queue)

/-- **In step**: the ring buffer stores the samples of the queued frames, and its storage has a cell
for each sample of a full queue and one more. -/
structure AudioRingBuffer.Stores (a : AudioRingBuffer T) (capacity : ℕ)
    (queue : List (Frame T c)) : Prop where
  channels : a.channelCount = c
  holds : a.ringBuffer.Holds (capacity * c + 1) (Frame.samples queue)

namespace AudioRingBuffer

variable {a : AudioRingBuffer T} {queue : List (Frame T c)}

/-- **The constructor, exactly**: with channels, and a storage that the indices can be added in. -/
lemma new_eq (c capacity : ℕ) (data : Mem T) :
    AudioRingBuffer.new c capacity data
      = if 0 < c ∧ capacity * c + 1 < intMax / 2 then
          some ⟨c, RingBuffer.new ((capacity * c : ℕ) : ℤ) data⟩
        else none := by
  have hhalf : intMax / 2 = 1073741823 := rfl
  rw [AudioRingBuffer.new, mulInt_natCast, hhalf]
  by_cases hfits : capacity * c < 2 ^ 31
  · have hiff : (RingBuffer.new ((capacity * c : ℕ) : ℤ) data).storageCapacity < 1073741823
          ∧ 0 < (RingBuffer.new ((capacity * c : ℕ) : ℤ) data).storageCapacity ∧ (0 : ℤ) < c
        ↔ 0 < c ∧ (capacity : ℤ) * c + 1 < 1073741823 := by
      simp only [RingBuffer.new]
      omega
    rw [if_pos hfits, Option.bind_eq_bind, Option.bind_some]
    exact if_congr hiff rfl rfl
  · -- the product overflows, and would have been too large in any case
    have hlarge : ¬ (0 < c ∧ (capacity : ℤ) * c + 1 < 1073741823) := by
      rw [← Nat.cast_mul]
      omega
    rw [if_neg hfits, if_neg hlarge, Option.bind_eq_bind, Option.bind_none]

lemma stores_new (c capacity : ℕ) (data : Mem T) :
    (⟨c, RingBuffer.new ((capacity * c : ℕ) : ℤ) data⟩ : AudioRingBuffer T).Stores capacity
      ([] : List (Frame T c)) :=
  ⟨rfl, holds_new (capacity * c) data⟩

/-- A number of samples that is one of whole frames. -/
lemma samplesToFrames_mul (h : a.channelCount = c) (hc : 0 < c) (k : ℕ) :
    a.samplesToFrames (k * c : ℕ) = k := by
  rw [samplesToFrames, h, ← Int.ofNat_tdiv, Nat.mul_div_cancel k hc]

lemma framesToSamples_eq (h : a.channelCount = c) (k : ℕ) :
    a.framesToSamples k = if k * c < 2 ^ 31 then some ((k * c : ℕ) : ℤ) else none := by
  rw [framesToSamples, h, mulInt_natCast]

variable [Inhabited T]

/-- A call in frames, as the ring buffer underneath gets it: a call in samples. -/
def samplesCall (call : EnqueueCall (Frame T c)) : EnqueueCall T where
  elements := call.elements.map Frame.samples
  count := call.count * c
  enough := by
    intro xs hxs
    rcases Option.map_eq_some_iff.1 hxs with ⟨frames, hframes, rfl⟩
    rw [Frame.length_samples]
    exact Nat.mul_le_mul_right c (call.enough frames hframes)

lemma values_samplesCall (call : EnqueueCall (Frame T c)) :
    (samplesCall call).values = Frame.samples call.values := by
  rcases call with ⟨elements, count, enough⟩
  cases elements with
  | some frames => rfl
  | none => exact (Frame.samples_replicate count).symm

/-- **`enqueue`**: the room for samples is a whole number of frames, so the call is cut between two
frames if it is cut at all. -/
lemma Stores.enqueue (h : a.Stores capacity queue) (hc : 0 < c) (call : EnqueueCall (Frame T c)) :
    Option.Rel (fun x y => x.1 = y.1 ∧ x.2.Stores capacity y.2) (a.step (.enqueue call))
      (FrameQueue.step capacity queue (.enqueue call)) := by
  rw [AudioRingBuffer.step, FrameQueue.step, AudioRingBuffer.enqueue, framesToSamples_eq h.channels]
  by_cases hfits : call.count * c < 2 ^ 31
  · have hroom : capacity * c + 1 - 1 - (Frame.samples queue).length
        = (capacity - queue.length) * c := by
      rw [Frame.length_samples, Nat.add_sub_cancel, Nat.sub_mul]
    have hmin : min ((capacity - queue.length) * c) (samplesCall call).count
        = min (capacity - queue.length) call.count * c := Nat.mul_min_mul_right _ _ _
    obtain ⟨hreturn, hholds⟩ := h.holds.enqueue (samplesCall call)
    rw [hroom, hmin] at hreturn hholds
    rw [values_samplesCall, Frame.samples_take, ← Frame.samples_append] at hholds
    have hframes := samplesToFrames_mul h.channels hc (min (capacity - queue.length) call.count)
    rw [← hreturn] at hframes
    rw [if_pos hfits, if_pos hfits]
    exact .some ⟨Prod.ext hframes rfl, h.channels, hholds⟩
  · rw [if_neg hfits, if_neg hfits]
    exact .none

/-- **`dequeue`**: what there is to read is a whole number of frames. -/
lemma Stores.dequeue (h : a.Stores capacity queue) (hc : 0 < c) (call : DequeueCall) :
    Option.Rel (fun x y => x.1 = y.1 ∧ x.2.Stores capacity y.2)
      (a.step (.dequeue call : AudioCall T c))
        (FrameQueue.step capacity queue (.dequeue call)) := by
  rw [AudioRingBuffer.step, FrameQueue.step, AudioRingBuffer.dequeue, framesToSamples_eq h.channels]
  by_cases hfits : call.count * c < 2 ^ 31
  · have hmin : min (Frame.samples queue).length (call.count * c)
        = min queue.length call.count * c := by
      rw [Frame.length_samples]
      exact Nat.mul_min_mul_right _ _ _
    obtain ⟨hreturn, hout, hholds⟩ := h.holds.dequeue call.elements (call.count * c)
    rw [hmin] at hreturn
    rw [Frame.samples_take] at hout
    rw [Frame.samples_drop] at hholds
    have hframes := samplesToFrames_mul h.channels hc (min queue.length call.count)
    rw [← hreturn] at hframes
    rw [if_pos hfits, if_pos hfits]
    exact .some ⟨Prod.ext hframes hout, h.channels, hholds⟩
  · rw [if_neg hfits, if_neg hfits]
    exact .none

/-- **One call** in step with the queue of frames. -/
lemma Stores.step (h : a.Stores capacity queue) (hc : 0 < c) (call : AudioCall T c) :
    Option.Rel (fun x y => x.1 = y.1 ∧ x.2.Stores capacity y.2) (a.step call)
      (FrameQueue.step capacity queue call) := by
  have hroom : capacity * c + 1 - 1 - (Frame.samples queue).length
      = (capacity - queue.length) * c := by
    rw [Frame.length_samples, Nat.add_sub_cancel, Nat.sub_mul]
  cases call with
  | enqueue call => exact h.enqueue hc call
  | dequeue call => exact h.dequeue hc call
  | availableRead =>
      rw [AudioRingBuffer.step, availableRead, h.holds.availableRead, Frame.length_samples,
        samplesToFrames_mul h.channels hc]
      exact .some ⟨rfl, h⟩
  | availableWrite =>
      rw [AudioRingBuffer.step, availableWrite, h.holds.availableWrite, hroom,
        samplesToFrames_mul h.channels hc]
      exact .some ⟨rfl, h⟩
  | capacity =>
      rw [AudioRingBuffer.step, AudioRingBuffer.capacity, h.holds.capacity, Nat.add_sub_cancel,
        samplesToFrames_mul h.channels hc]
      exact .some ⟨rfl, h⟩

/-- **In whole frames**: over every sequence of calls the adapter answers as a queue of frames does,
up to the first call whose count of samples overflows.  Without channels, or with a storage too
large for the indices, there is no adapter. -/
theorem answers_eq_frameQueue (c capacity : ℕ) (data : Mem T) (calls : List (AudioCall T c)) :
    (AudioRingBuffer.new c capacity data).map (fun a => answers AudioRingBuffer.step a calls)
      = if 0 < c ∧ capacity * c + 1 < intMax / 2 then
          some (answers (FrameQueue.step capacity) [] calls)
        else none := by
  rw [new_eq]
  split_ifs with hnew
  · rw [Option.map_some]
    refine congrArg some (answers_of_simulation (R := fun a queue => a.Stores capacity queue)
      (Q := fun _ _ => True) (fun _ _ call h _ => h.step hnew.1 call) (stores_new c capacity data)
      (everyStep_of_forall (fun _ _ => trivial) _ calls))
  · rfl

/-- Stereo: three frames into a queue of two, one out, and what is left.  The last call asks for
2³⁰ frames, which are too many samples. -/
example :
    (AudioRingBuffer.new (2 : ℕ) (2 : ℕ) fun _ => 0).map (fun a => answers AudioRingBuffer.step a
        [.enqueue (c := 2) ⟨some [⟨[1, 2], rfl⟩, ⟨[3, 4], rfl⟩, ⟨[5, 6], rfl⟩], 3, by decide⟩,
          .dequeue ⟨true, 1⟩, .availableRead, .dequeue ⟨false, 2 ^ 30⟩])
      = some [some (2, []), some (1, [1, 2]), some (1, []), none] := by
  decide +kernel

end AudioRingBuffer

end MinSeq
