import MinSeq.Cubeb.ArrayQueue

/-!
# Full-duplex input buffers

`extlibs/cubeb/src/cubeb_opensl.c` records into a fixed set of buffers in turn.  When the recorder
has filled one, its callback gives it the next one to fill and pushes the filled one into a queue;
the player's callback pops a buffer and hands it to the resampler.  Nothing in either callback asks
whether the buffer that is about to be filled is still queued, or still being read.  Is it ever?

**The threads.**  The recorder's callback and the player's run on threads of the system, and the
application's thread starts and stops the stream.  Each callback is cut here where another thread
can come between: the recorder's first reads the two flags, then enqueues the next buffer, then
pushes the filled one; the player's first reads the flags, then pops, then has its buffer read, then
sets a flag if the resampler returned too little or too much.  A run is any order of these steps.
With a flag set the recorder's callback only enqueues, and the buffer it had filled is lost; the
player's callback leaves the queue alone.

**What is assumed.**  The recorder accepts every buffer, which the callbacks assert.  A callback
begins after the one before it on its thread has ended.  A buffer is its index here, and a filled
one also carries the number of the turn it was given to the recorder in.  No function of the source
knows that number, and none here decides anything by it.

* **`intact_iff`** — over every order of the steps: the recorder never fills a buffer in use as long
  as each buffer in use was given to it fewer turns ago than there are buffers, and no longer.
-/

namespace MinSeq

open ArrayQueue Cyclic Runs

/-- **A filled buffer**: its place in `input_buffer_array`, which stands for the pointer, and the
turn that it was given to the recorder in. -/
structure Recorded where
  buffer : ℕ
  turn : ℕ
deriving DecidableEq

/-- **What the resampler returns**, as `player_fullduplex_callback` compares it with the number of
frames it asked for: all of them, fewer, or a number that is an error. -/
inductive Written where
  | full
  | short
  | error
deriving DecidableEq

/-- **Where the recorder's callback is.**  `running` has read the flags, and knows whether one was
set.  `enqueued` has given the next buffer to the recorder and holds the filled one.  `failed` is
the assertion that there was a filled one. -/
inductive Recorder where
  | idle
  | running (stopped : Bool)
  | enqueued (inputBuffer : Recorded)
  | failed
deriving DecidableEq

/-- **Where the player's callback is.**  `reading` has popped, and the resampler reads what was
popped, or the silent buffer if there was nothing.  `filled` has the resampler's answer. -/
inductive Player where
  | idle
  | running (stopped : Bool)
  | reading (inputBuffer : Option Recorded)
  | filled (written : Written)
deriving DecidableEq

/-- The buffer that the recorder's callback has got from the recorder and not pushed yet. -/
def Recorder.inputBuffer : Recorder → Option Recorded
  | .enqueued b => some b
  | _ => none

/-- The buffer that the resampler reads for the player's callback. -/
def Player.inputBuffer : Player → Option Recorded
  | .reading b => b
  | _ => none

/-- **A stream that records and plays**, as far as its input buffers go.  The two flags are the ones
under the stream's mutex. -/
structure OpenslInput where
  inputArrayCapacity : ℕ
  inputBufferIndex : ℤ
  inputQueue : ArrayQueue Recorded
  shutdown : Bool
  draining : Bool
  recorder : Recorder
  player : Player
  /-- How often the recorder was given another buffer after the first one. -/
  turn : ℕ

namespace OpenslInput

/-- **`opensl_enqueue_recorder`**: the last filled buffer, and the next one given to the recorder.
On the first call there is no filled one, and the index is negative to say so. -/
def enqueueRecorder (stm : OpenslInput) : Option Recorded × OpenslInput :=
  let currentIndex := stm.inputBufferIndex
  if currentIndex < 0 then (none, { stm with inputBufferIndex := 0 })
  else
    (some { buffer := currentIndex.toNat, turn := stm.turn },
      { stm with
        inputBufferIndex := (currentIndex + 1) % stm.inputArrayCapacity
        turn := stm.turn + 1 })

/-- **`opensl_configure_capture`** of a stream that also plays, its first buffer enqueued.  A stream
is shut down until it is started. -/
def configureCapture (inputArrayCapacity : ℕ) : OpenslInput :=
  (enqueueRecorder
    { inputArrayCapacity := inputArrayCapacity
      inputBufferIndex := -1
      inputQueue := create inputArrayCapacity
      shutdown := true
      draining := false
      recorder := .idle
      player := .idle
      turn := 0 }).2

/-- **`recorder_fullduplex_callback`**, its next step. -/
def recorderFullduplexCallback (stm : OpenslInput) : OpenslInput :=
  match stm.recorder with
  | .idle => { stm with recorder := .running (stm.shutdown || stm.draining) }
  | .running true => { (enqueueRecorder stm).2 with recorder := .idle }
  | .running false =>
      match enqueueRecorder stm with
      | (some inputBuffer, stm) => { stm with recorder := .enqueued inputBuffer }
      | (none, stm) => { stm with recorder := .failed }
  -- a push into a full queue is only logged
  | .enqueued inputBuffer =>
      { stm with inputQueue := (stm.inputQueue.push inputBuffer).2, recorder := .idle }
  | .failed => stm

/-- **`player_fullduplex_callback`**, its next step.  Only the step that ends the resampler's work
looks at what it returns. -/
def playerFullduplexCallback (stm : OpenslInput) (written : Written) : OpenslInput :=
  match stm.player with
  | .idle => { stm with player := .running (stm.shutdown || stm.draining) }
  | .running true => { stm with player := .idle }
  | .running false =>
      { stm with inputQueue := stm.inputQueue.pop.2, player := .reading stm.inputQueue.pop.1 }
  | .reading _ => { stm with player := .filled written }
  | .filled .error => { stm with shutdown := true, player := .idle }
  | .filled .short => { stm with draining := true, player := .idle }
  | .filled .full => { stm with player := .idle }

/-- `opensl_stream_start` clears both flags before anything else. -/
def streamStart (stm : OpenslInput) : OpenslInput :=
  { stm with shutdown := false, draining := false }

/-- `opensl_stream_stop` sets one before anything else. -/
def streamStop (stm : OpenslInput) : OpenslInput := { stm with shutdown := true }

/-- **The next step of one thread.** -/
inductive Event where
  | recorder
  | player (written : Written)
  | start
  | stop
deriving DecidableEq

def step (stm : OpenslInput) : Event → OpenslInput
  | .recorder => stm.recorderFullduplexCallback
  | .player written => stm.playerFullduplexCallback written
  | .start => stm.streamStart
  | .stop => stm.streamStop

/-! ## Which buffers are in use

A filled buffer is in use from the moment the recorder is given the next one until the resampler has
read it, or until it is dropped.  In between it is held by the recorder's callback, by the queue and
by the player's callback, one after the other. -/

/-- The pointers in the array, from the read position on. -/
def queued (aq : ArrayQueue Recorded) : List Recorded :=
  (window aq.buf aq.num aq.readPos aq.num).filterMap id

/-- **The buffers in use**, the one that is read first. -/
def inUse (stm : OpenslInput) : List Recorded :=
  stm.player.inputBuffer.toList ++ queued stm.inputQueue ++ stm.recorder.inputBuffer.toList

/-- **Nothing in use is being filled**, and the recorder's callback has always found a filled
buffer. -/
def Intact (stm : OpenslInput) : Prop :=
  stm.recorder ≠ .failed ∧ ∀ b ∈ stm.inUse, (b.buffer : ℤ) ≠ stm.inputBufferIndex

/-- **Everything in use is recent**: the recorder was given it fewer turns ago than there are
buffers. -/
def Recent (stm : OpenslInput) : Prop := ∀ b ∈ stm.inUse, stm.turn < b.turn + stm.inputArrayCapacity

instance (stm : OpenslInput) : Decidable stm.Recent :=
  inferInstanceAs (Decidable (∀ b ∈ stm.inUse, stm.turn < b.turn + stm.inputArrayCapacity))

/-- **The turns behind the indices.**  The index is where the current turn falls, and so is each
buffer in use where its own turn fell.  At most one round of turns has passed since, and when it is
a whole round, the buffer's place has come up again. -/
structure Turns (stm : OpenslInput) (capacity : ℕ) (queue : List Recorded) : Prop where
  capacity_eq : stm.inputArrayCapacity = capacity
  holds : stm.inputQueue.Holds capacity queue
  index : stm.inputBufferIndex = (stm.turn % capacity : ℕ)
  recorder_ne : stm.recorder ≠ .failed
  turns : ∀ b ∈ stm.player.inputBuffer.toList ++ queue ++ stm.recorder.inputBuffer.toList,
    b.buffer = b.turn % capacity ∧ b.turn < stm.turn ∧ stm.turn ≤ b.turn + capacity

variable {stm : OpenslInput} {capacity : ℕ} {queue : List Recorded}

/-- The array read from its read position on is the queue it holds: behind the queue there are only
null pointers. -/
lemma queued_eq {aq : ArrayQueue Recorded} (h : aq.Holds capacity queue) : queued aq = queue := by
  rw [queued, h.num_eq, h.cells, List.filterMap_append, List.filterMap_map]
  simp

namespace Turns

lemma inUse_eq (h : stm.Turns capacity queue) :
    stm.inUse = stm.player.inputBuffer.toList ++ queue ++ stm.recorder.inputBuffer.toList := by
  rw [inUse, queued_eq h.holds]

/-- **A buffer's place comes up again** exactly when a whole round of turns has passed since its
own, since two different turns of one round fall on different places. -/
lemma intact_iff_recent (h : stm.Turns capacity queue) : stm.Intact ↔ stm.Recent := by
  have hbuffer : ∀ b ∈ stm.inUse,
      ((b.buffer : ℤ) ≠ stm.inputBufferIndex ↔ stm.turn < b.turn + stm.inputArrayCapacity) := by
    intro b hb
    rw [h.inUse_eq] at hb
    rcases h.turns b hb with ⟨hplace, hpast, hround⟩
    rw [h.index, hplace, h.capacity_eq, Ne, Int.natCast_inj]
    constructor
    · intro hne
      by_contra hle
      have hturn : stm.turn = b.turn + capacity := by omega
      rw [hturn, Nat.add_mod_right] at hne
      exact hne rfl
    · intro hlt
      exact mod_ne_mod (i := b.turn) le_rfl (by omega) hpast.le hlt hpast.ne
  rw [Intact, Recent, and_iff_right h.recorder_ne]
  exact forall₂_congr hbuffer

/-- The index is not negative after the first buffer, so the recorder's callback takes the second
branch of `opensl_enqueue_recorder`. -/
lemma enqueueRecorder_eq (h : stm.Turns capacity queue) :
    stm.enqueueRecorder = (some { buffer := stm.turn % capacity, turn := stm.turn },
      { stm with
        inputBufferIndex := ((stm.turn + 1) % capacity : ℕ)
        turn := stm.turn + 1 }) := by
  have hindex : ¬ stm.inputBufferIndex < 0 := by
    rw [h.index]
    exact Int.not_lt.2 (Int.natCast_nonneg _)
  rw [enqueueRecorder, if_neg hindex, h.index, h.capacity_eq, Int.toNat_natCast]
  norm_cast
  rw [Nat.mod_add_mod]

/-- One more turn takes nothing in use further back than a round, if everything in use was
recent. -/
lemma turns_succ (h : stm.Turns capacity queue) (hrecent : stm.Recent) {b : Recorded}
    (hb : b ∈ stm.inUse) :
    b.buffer = b.turn % capacity ∧ b.turn < stm.turn + 1 ∧ stm.turn + 1 ≤ b.turn + capacity := by
  have hlt := hrecent b hb
  rw [h.inUse_eq] at hb
  rw [h.capacity_eq] at hlt
  rcases h.turns b hb with ⟨hplace, hpast, -⟩
  exact ⟨hplace, by omega, hlt⟩

/-- **The recorder's callback.**  It takes the filled buffer from the current turn, and later moves
it to the end of the queue, or drops it. -/
lemma recorder (h : stm.Turns capacity queue) (hrecent : stm.Recent) (hcapacity : 0 < capacity) :
    ∃ queue', stm.recorderFullduplexCallback.Turns capacity queue' := by
  have hinUse := h.inUse_eq
  rw [recorderFullduplexCallback]
  cases hat : stm.recorder with
  | idle =>
      refine ⟨queue, h.capacity_eq, h.holds, h.index, nofun, ?_⟩
      have hturns := h.turns
      rwa [hat] at hturns
  | running stopped =>
      rw [hat] at hinUse
      cases stopped with
      | true =>
          simp only [h.enqueueRecorder_eq]
          refine ⟨queue, h.capacity_eq, h.holds, rfl, nofun, ?_⟩
          intro b hb
          exact h.turns_succ hrecent (hinUse ▸ hb)
      | false =>
          simp only [h.enqueueRecorder_eq]
          refine ⟨queue, h.capacity_eq, h.holds, rfl, nofun, ?_⟩
          intro b hb
          rcases List.mem_append.1 hb with hold | hnew
          · exact h.turns_succ hrecent (hinUse ▸ List.mem_append_left _ hold)
          · obtain rfl : b = { buffer := stm.turn % capacity, turn := stm.turn } :=
              List.mem_singleton.1 hnew
            exact ⟨rfl, Nat.lt_succ_self _, by show stm.turn + 1 ≤ stm.turn + capacity; omega⟩
  | enqueued inputBuffer =>
      have hturns := h.turns
      rw [hat] at hturns
      refine ⟨_, h.capacity_eq, (h.holds.push inputBuffer).2, h.index, nofun, ?_⟩
      intro b hb
      refine hturns b ?_
      simp only [Recorder.inputBuffer, Option.toList_none, List.append_nil, List.mem_append] at hb
      simp only [Recorder.inputBuffer, Option.toList_some, List.mem_append]
      split_ifs at hb
      · rw [List.mem_append] at hb
        tauto
      · tauto
  | failed => exact absurd hat h.recorder_ne

/-- **The player's callback.**  It takes the first buffer out of the queue and lets go of it when
the resampler has read it; its other steps touch no buffer. -/
lemma player (h : stm.Turns capacity queue) (written : Written) :
    ∃ queue', (stm.playerFullduplexCallback written).Turns capacity queue' := by
  have hturns := h.turns
  -- wherever the callback lets go of a buffer or holds none, the others stay as they are
  have hrest : ∀ b ∈ queue ++ stm.recorder.inputBuffer.toList,
      b.buffer = b.turn % capacity ∧ b.turn < stm.turn ∧ stm.turn ≤ b.turn + capacity := by
    intro b hb
    rw [List.append_assoc] at hturns
    exact hturns b (List.mem_append_right _ hb)
  rw [playerFullduplexCallback]
  cases hat : stm.player with
  | idle => exact ⟨queue, h.capacity_eq, h.holds, h.index, h.recorder_ne, hrest⟩
  | running stopped =>
      cases stopped with
      | true => exact ⟨queue, h.capacity_eq, h.holds, h.index, h.recorder_ne, hrest⟩
      | false =>
          rcases h.holds.pop with ⟨hvalue, hpop⟩
          refine ⟨queue.tail, h.capacity_eq, hpop, h.index, h.recorder_ne, ?_⟩
          intro b hb
          refine hrest b ?_
          simp only [Player.inputBuffer, hvalue] at hb
          cases queue with
          | nil => exact hb
          | cons first rest => exact hb
  | reading inputBuffer => exact ⟨queue, h.capacity_eq, h.holds, h.index, h.recorder_ne, hrest⟩
  | filled answer =>
      cases answer <;> exact ⟨queue, h.capacity_eq, h.holds, h.index, h.recorder_ne, hrest⟩

/-- **Every step** keeps the turns, as long as it found everything in use recent. -/
lemma exists_step (h : stm.Turns capacity queue) (hrecent : stm.Recent) (hcapacity : 0 < capacity)
    (event : Event) : ∃ queue', (stm.step event).Turns capacity queue' := by
  cases event with
  | recorder => exact h.recorder hrecent hcapacity
  | player written => exact h.player written
  | start => exact ⟨queue, h.capacity_eq, h.holds, h.index, h.recorder_ne, h.turns⟩
  | stop => exact ⟨queue, h.capacity_eq, h.holds, h.index, h.recorder_ne, h.turns⟩

end Turns

lemma turns_configureCapture (hcapacity : 0 < capacity) :
    (configureCapture capacity).Turns capacity [] :=
  ⟨rfl, holds_create hcapacity, by simp [configureCapture, enqueueRecorder], nofun, nofun⟩

lemma recent_configureCapture (hcapacity : 0 < capacity) : (configureCapture capacity).Recent := by
  intro b hb
  rw [(turns_configureCapture hcapacity).inUse_eq] at hb
  exact absurd hb List.not_mem_nil

/-- **When the input is intact**, over every order of the steps.  The condition counts turns, not
buffers in use: a callback that finds a flag set uses up a turn and leaves no buffer behind.  The
source asserts that there is a buffer, when it creates the queue. -/
theorem intact_iff (capacity : ℕ) (hcapacity : 0 < capacity) (events : List Event) :
    EveryStep step (fun stm event => (stm.step event).Intact) (configureCapture capacity) events
      ↔ EveryStep step (fun stm event => (stm.step event).Recent)
          (configureCapture capacity) events := by
  refine everyStep_congr (I := fun stm => (∃ queue, stm.Turns capacity queue) ∧ stm.Recent)
    ?_ ?_ ⟨⟨[], turns_configureCapture hcapacity⟩, recent_configureCapture hcapacity⟩
  · rintro stm event ⟨⟨queue, hturns⟩, hrecent⟩ hintact
    obtain ⟨queue', hnext⟩ := hturns.exists_step hrecent hcapacity event
    exact ⟨⟨queue', hnext⟩, hnext.intact_iff_recent.1 hintact⟩
  · rintro stm event ⟨⟨queue, hturns⟩, hrecent⟩
    obtain ⟨queue', hnext⟩ := hturns.exists_step hrecent hcapacity event
    exact hnext.intact_iff_recent

/-- Two buffers: while the resampler reads the first one, its place comes up again. -/
theorem intact_iff_two :
    ¬ EveryStep step (fun stm event => (stm.step event).Intact) (configureCapture 2)
      [.start, .recorder, .recorder, .recorder, .player .full, .player .full, .recorder,
        .recorder] :=
  fun hintact => absurd ((intact_iff 2 (by decide) _).1 hintact) (by decide)

end OpenslInput

end MinSeq
