import MinSeq.Core.Runs
import MinSeq.Cubeb.RingBuffer

/-!
# Two threads on one ring buffer

The producer's thread calls `enqueue`, the consumer's `dequeue`, and either may run at any time.  A
step is one access to what they share: an index loaded, an index stored, or one cell copied.  The
steps of the two threads are interleaved in every order.

**Sequential consistency.**  Each step takes effect at once and in the order of its thread.  The
code asks for less: the write index is published with release and acquire, but the read index is
loaded and stored relaxed, so nothing orders the consumer's copies before the producer's next writes
to the same cells.  As a C++ program the two threads have a data race there, and the results here
are about interleavings, not about everything that a compiler or a processor may make of the code.
The comments in the source promise that updates of both indices are synchronized.

Beside the threads stands what their callers know (`sent`, `received` and the values returned),
which the code does not keep.

**How the proof goes.**  A thread that has loaded the other's index works with a value that may be
old by the time it uses it.  It errs on the safe side: an old read index makes the buffer look
fuller to the producer, and an old write index makes it look emptier to the consumer.  `Producer.Ok`
and `Consumer.Ok` say what a thread may rely on at each point of its call, and both survive whatever
the other thread does; the invariant is these two, and what the two counts say about the indices and
the cells.

* **`carries_of_run`** — whatever the interleaving, elements come out in the order they went in,
  none is lost or doubled, and there are never more than `capacity()` of them on the way.
* **`disjoint_of_run`** — whatever the interleaving, no cell is written while it is still to be
  read.
* **`enqueue_of_run`**, **`dequeue_of_run`** — a call returns after a bounded number of its own
  steps, and what it returns was settled when it began.
* **`enqueue_alone`**, **`dequeue_alone`** — without the other thread, the steps of a call make up
  the sequential function.
-/

namespace MinSeq

open Memory Cyclic Fifo Runs

namespace RingBuffer

variable {T : Type}

/-! ## The threads

Each thread is between two steps of a call, or in none, and holds what the function's local
variables hold at that point.
-/

/-- **What the producer holds between two steps**: the index it has loaded, and later the writes it
has not done yet. -/
inductive Producer (T : Type) where
  | idle
  | loadedReadIndex (call : EnqueueCall T) (rdIdx : ℤ)
  | copying (call : EnqueueCall T) (wrIdx toWrite : ℤ) (pending : List (ℕ × T))

/-- **What the consumer holds between two steps**: the index it has loaded, and later the cells it
has not read yet and what it has copied so far. -/
inductive Consumer (T : Type) where
  | idle
  | loadedWriteIndex (call : DequeueCall) (wrIdx : ℤ)
  | copying (call : DequeueCall) (rdIdx toRead : ℤ) (pending : List ℕ) (copied : List T)

/-- The cells the call is still going to write, the next one first.  A call that has not settled how
much it writes is not going to write any yet. -/
def Producer.cells : Producer T → List ℕ
  | .copying _ _ _ pending => pending.map Prod.fst
  | _ => []

/-- The cells the call is still going to read.  A call that throws elements away reads none. -/
def Consumer.cells : Consumer T → List ℕ
  | .copying _ _ _ pending _ => pending
  | _ => []

/-- **The two threads and what they share**, with the logs of their callers. -/
structure Threads (T : Type) where
  ring : RingBuffer T
  producer : Producer T
  consumer : Consumer T
  /-- Every element an `enqueue` has accepted, and what the calls returned. -/
  sent : List T
  enqueued : List ℤ
  /-- Every element a `dequeue` has delivered, and what the calls returned. -/
  received : List (Option T)
  dequeued : List ℤ

/-- **What may happen next**: a thread that is in no call begins one, or a thread in a call takes
its next step. -/
inductive Action (T : Type) where
  | enqueue (call : EnqueueCall T)
  | producer
  | dequeue (call : DequeueCall)
  | consumer

namespace Threads

def new (capacity : ℤ) (data : Mem T) : Threads T :=
  ⟨RingBuffer.new capacity data, .idle, .idle, [], [], [], []⟩

/-- **The elements on the way**, as the indices delimit them, from the next one to be taken out to
the last one put in. -/
def contents (s : Threads T) : List T :=
  window s.ring.data s.ring.storageCapacity.toNat s.ring.readIndex.toNat s.ring.availableRead.toNat

variable [Inhabited T]

/-- **The next step of a running `enqueue`.**  The first one loads its own index, which no other
thread stores, and settles how much is written; then comes one cell at a time, and last the
index. -/
def stepProducer (s : Threads T) : Threads T :=
  match s.producer with
  | .idle => s
  | .loadedReadIndex call rdIdx =>
      let wrIdx := s.ring.writeIndex
      if s.ring.fullInternal rdIdx wrIdx then
        { s with producer := .idle, enqueued := s.enqueued ++ [0] }
      else
        let toWrite := min (s.ring.availableWriteInternal rdIdx wrIdx) call.count
        { s with
          producer := .copying call wrIdx toWrite
            (s.ring.enqueueCopies wrIdx call.elements toWrite) }
  | .copying call wrIdx toWrite (w :: pending) =>
      { s with
        ring := { s.ring with data := write s.ring.data w }
        producer := .copying call wrIdx toWrite pending }
  | .copying call wrIdx toWrite [] =>
      { s with
        ring := { s.ring with writeIndex := s.ring.incrementIndex wrIdx toWrite }
        producer := .idle
        sent := s.sent ++ call.values.take toWrite.toNat
        enqueued := s.enqueued ++ [toWrite] }

/-- **The next step of a running `dequeue`**, with the same four stages.  What it has copied so far
is in a buffer of the caller's, which no other thread sees. -/
def stepConsumer (s : Threads T) : Threads T :=
  match s.consumer with
  | .idle => s
  | .loadedWriteIndex call wrIdx =>
      let rdIdx := s.ring.readIndex
      if s.ring.emptyInternal rdIdx wrIdx then
        { s with consumer := .idle, dequeued := s.dequeued ++ [0] }
      else
        let toRead := min (s.ring.availableReadInternal rdIdx wrIdx) call.count
        { s with
          consumer := .copying call rdIdx toRead
            (s.ring.dequeueCopies rdIdx call.elements toRead) [] }
  | .copying call rdIdx toRead (a :: pending) copied =>
      { s with consumer := .copying call rdIdx toRead pending (copied ++ [s.ring.data a]) }
  | .copying call rdIdx toRead [] copied =>
      { s with
        ring := { s.ring with readIndex := s.ring.incrementIndex rdIdx toRead }
        consumer := .idle
        received := s.received ++
          (if call.elements then copied.map some else List.replicate toRead.toNat none)
        dequeued := s.dequeued ++ [toRead] }

/-- **One step of either thread**; a thread that is in a call does not start another. -/
def step (s : Threads T) : Action T → Threads T
  | .enqueue call =>
      match s.producer with
      | .idle => { s with producer := .loadedReadIndex call s.ring.readIndex }
      | _ => s
  | .producer => s.stepProducer
  | .dequeue call =>
      match s.consumer with
      | .idle => { s with consumer := .loadedWriteIndex call s.ring.writeIndex }
      | _ => s
  | .consumer => s.stepConsumer

end Threads

/-! ## What a thread in a call relies on

`R` elements were taken out so far and `W` put in.  The other thread only moves its own count, and
up.  So what a thread may rely on is stated in these two counts, and there are two lemmas for each
thread: one for the count that the other thread moves, and one for the cells that it writes.

A loaded index is the remainder of a count as well, of one that may have grown since.  That it was
right at some time is all that is known of it, and all that is needed.
-/

section Reliance

variable {n R W R' W' t k copied : ℕ} {data : Mem T} {x : T} {c : Consumer T}

/-- **The consumer has read `copied` of `k` elements**, all of which were there when it settled on
`k`.  What it has seen are the first of them, and what is pending are the cells of the others. -/
structure Taking (n R W : ℕ) (data : Mem T) (pending : List ℕ) (seen : List T) (k copied : ℕ) :
    Prop where
  there : R + k ≤ W
  le : copied ≤ k
  seen_eq : seen = window data n R copied
  pending_eq : pending = slots n (R + copied) (k - copied)

/-- **What the consumer may rely on**: the write index it has loaded was right at some time, and
what was there then still is. -/
def Consumer.Ok (n R W : ℕ) (data : Mem T) : Consumer T → Prop
  | .idle => True
  | .loadedWriteIndex _ wrIdx => ∃ W', R ≤ W' ∧ W' ≤ W ∧ wrIdx = (W' % n : ℕ)
  | .copying call rdIdx toRead pending seen =>
      ∃ k : ℕ, rdIdx = (R % n : ℕ) ∧ toRead = k ∧ R + k ≤ W ∧
        if call.elements then ∃ copied, Taking n R W data pending seen k copied
        else pending = [] ∧ seen = []

/-- Elements put in leave more to take: whatever the producer publishes, the consumer may go on. -/
lemma Consumer.Ok.mono (h : c.Ok n R W data) (hle : W ≤ W') : c.Ok n R W' data := by
  cases c with
  | idle => trivial
  | loadedWriteIndex call wrIdx =>
      rcases h with ⟨W₀, hlo, hhi, hidx⟩
      exact ⟨W₀, hlo, hhi.trans hle, hidx⟩
  | copying call rdIdx toRead pending seen =>
      rcases h with ⟨k, hidx, hk, hthere, hseen⟩
      refine ⟨k, hidx, hk, hthere.trans hle, ?_⟩
      split_ifs at hseen ⊢
      · rcases hseen with ⟨copied, ht⟩
        exact ⟨copied, { ht with there := ht.there.trans hle }⟩
      · exact hseen

/-- A cell written past what is there does not change what the consumer reads. -/
lemma Consumer.Ok.write (h : c.Ok n R W data) (hlo : W ≤ t) (hhi : t < R + n) :
    c.Ok n R W (write data (t % n, x)) := by
  cases c with
  | idle => trivial
  | loadedWriteIndex call wrIdx => exact h
  | copying call rdIdx toRead pending seen =>
      rcases h with ⟨k, hidx, hk, hthere, hseen⟩
      refine ⟨k, hidx, hk, hthere, ?_⟩
      split_ifs at hseen ⊢
      · rcases hseen with ⟨copied, ht⟩
        have hle := ht.le
        refine ⟨copied, { ht with seen_eq := ?_ }⟩
        rw [ht.seen_eq]
        exact (window_update_outside (by omega) hhi).symm
      · exact hseen

/-- The next cell read is one more element, and it is the one whose turn it is, because the producer
has not written to this cell since. -/
lemma Taking.next {a : ℕ} {pending : List ℕ} {seen : List T}
    (h : Taking n R W data (a :: pending) seen k copied) :
    Taking n R W data pending (seen ++ [data a]) k (copied + 1) := by
  have hpending := h.pending_eq
  have hlt : copied < k := by
    by_contra hge
    rw [show k - copied = 0 by omega] at hpending
    simp at hpending
  rw [show k - copied = (k - (copied + 1)) + 1 by omega, slots, List.cons.injEq] at hpending
  rcases hpending with ⟨ha, hrest⟩
  refine ⟨h.there, hlt, ?_, ?_⟩
  · rw [h.seen_eq, ha, window_add]
    rfl
  · rw [hrest, Nat.add_assoc]

lemma Taking.finished {seen : List T} (h : Taking n R W data [] seen k copied) : copied = k := by
  have hpending := congrArg List.length h.pending_eq
  have hle := h.le
  simp at hpending
  omega

/-- What the consumer is going to read is there: every cell ahead of it belongs to a turn between
the two counts. -/
lemma Consumer.Ok.mem_cells {a : ℕ} (h : c.Ok n R W data) (ha : a ∈ c.cells) :
    ∃ t, R ≤ t ∧ t < W ∧ t % n = a := by
  cases c with
  | copying call rdIdx toRead pending seen =>
      rcases h with ⟨k, -, -, hthere, hseen⟩
      split_ifs at hseen
      · rcases hseen with ⟨copied, ht⟩
        have hcells : a ∈ pending := ha
        rw [ht.pending_eq] at hcells
        rcases Cyclic.mem_slots.1 hcells with ⟨t, hlo, hhi, rfl⟩
        have hle := ht.le
        exact ⟨t, by omega, by omega, rfl⟩
      · rw [hseen.1] at ha
        exact absurd ha List.not_mem_nil
  | _ => exact absurd ha List.not_mem_nil

variable [Inhabited T] {p : Producer T}

/-- **The producer has written `copied` of `k` elements**, past everything the consumer may read.
They do not count yet: the cells from `W` on are not contents. -/
structure Writing (n R W : ℕ) (data : Mem T) (call : EnqueueCall T) (pending : List (ℕ × T))
    (k copied : ℕ) : Prop where
  le_count : k ≤ call.count
  fits : W + k < R + n
  le : copied ≤ k
  written : window data n W copied = call.values.take copied
  pending_eq : pending
    = (slots n (W + copied) (k - copied)).zip (call.values.drop copied)

/-- **What the producer may rely on**: the read index it has loaded was right at some time, and
there was room then. -/
def Producer.Ok (n R W : ℕ) (data : Mem T) : Producer T → Prop
  | .idle => True
  | .loadedReadIndex _ rdIdx => ∃ R', R' ≤ R ∧ W < R' + n ∧ rdIdx = (R' % n : ℕ)
  | .copying call wrIdx toWrite pending =>
      ∃ k copied : ℕ, wrIdx = (W % n : ℕ) ∧ toWrite = k ∧ Writing n R W data call pending k copied

/-- Elements taken out leave more room: whatever the consumer releases, the producer may go on. -/
lemma Producer.Ok.mono (h : p.Ok n R W data) (hle : R ≤ R') : p.Ok n R' W data := by
  cases p with
  | idle => trivial
  | loadedReadIndex call rdIdx =>
      rcases h with ⟨R₀, hR, hlt, hidx⟩
      exact ⟨R₀, hR.trans hle, hlt, hidx⟩
  | copying call wrIdx toWrite pending =>
      rcases h with ⟨k, copied, hidx, hk, hw⟩
      exact ⟨k, copied, hidx, hk, { hw with fits := by have := hw.fits; omega }⟩

/-- The next write is one more element behind those already written. -/
lemma Writing.next {call : EnqueueCall T} {w : ℕ × T} {pending : List (ℕ × T)}
    (h : Writing n R W data call (w :: pending) k copied) (hle : R ≤ W) :
    ∃ x, w = ((W + copied) % n, x) ∧ copied < k
      ∧ Writing n R W (MinSeq.write data w) call pending k (copied + 1) := by
  have hfits := h.fits
  have hvalues := call.count_le
  have hcount := h.le_count
  have hpending := h.pending_eq
  have hlt : copied < k := by
    by_contra hge
    rw [show k - copied = 0 by omega] at hpending
    simp at hpending
  rw [show k - copied = (k - (copied + 1)) + 1 by omega, slots,
    List.drop_eq_getElem_cons (by omega), List.zip_cons_cons, List.cons.injEq] at hpending
  rcases hpending with ⟨hw, hrest⟩
  refine ⟨_, hw, hlt, hcount, hfits, hlt, ?_, ?_⟩
  · rw [hw]
    show window (Function.update _ _ _) n W (copied + 1) = _
    rw [window_update_next (by omega), h.written, List.take_append_getElem]
  · rw [hrest, Nat.add_assoc]

lemma Writing.finished {call : EnqueueCall T} (h : Writing n R W data call [] k copied) :
    copied = k := by
  have hpending := congrArg List.length h.pending_eq
  have hvalues := call.count_le
  have hcount := h.le_count
  have hle := h.le
  simp at hpending
  omega

/-- What is still to be written are the next turns' cells. -/
lemma Writing.mem_slots {call : EnqueueCall T} {pending : List (ℕ × T)} {a : ℕ}
    (h : Writing n R W data call pending k copied) (ha : a ∈ pending.map Prod.fst) :
    a ∈ slots n (W + copied) (k - copied) := by
  rcases List.mem_map.1 ha with ⟨w, hw, rfl⟩
  rw [h.pending_eq] at hw
  exact (List.of_mem_zip hw).1

/-- There is no more of it than the call was asked for. -/
lemma Writing.length_le {call : EnqueueCall T} {pending : List (ℕ × T)}
    (h : Writing n R W data call pending k copied) : pending.length ≤ call.count := by
  have hcount := h.le_count
  rw [h.pending_eq, List.length_zip, length_slots]
  omega

/-- What the producer is going to write lies past everything that is there, and less than one round
ahead of what was taken out. -/
lemma Producer.Ok.mem_cells {a : ℕ} (h : p.Ok n R W data) (ha : a ∈ p.cells) :
    ∃ t, W ≤ t ∧ t < R + n ∧ t % n = a := by
  cases p with
  | copying call wrIdx toWrite pending =>
      rcases h with ⟨k, copied, -, -, hw⟩
      rcases Cyclic.mem_slots.1 (hw.mem_slots ha) with ⟨t, hlo, hhi, rfl⟩
      have hfits := hw.fits
      have hle := hw.le
      exact ⟨t, by omega, by omega, rfl⟩
  | _ => exact absurd ha List.not_mem_nil

end Reliance

/-! ## The invariant

One lemma for each point of either thread's call, named for what has happened there; the step lemmas
only dispatch.  Each of them changes the fields that the source changes at this point, shows that
the thread may rely on what it has read there, and takes over from before what the other thread
relies on.
-/

namespace Threads

variable [Inhabited T] {n k : ℕ} {s : Threads T}

/-- **The invariant**: indices and cells are what the two counts say, and each thread may rely on
what it has read.  The two counts are the lengths of the logs, so nothing here wraps around. -/
structure Inv (n : ℕ) (s : Threads T) : Prop where
  turns : s.ring.At n s.received.length s.sent.length
  carries : Carries s.sent s.received
    (window s.ring.data n s.received.length (s.sent.length - s.received.length))
  producer : s.producer.Ok n s.received.length s.sent.length s.ring.data
  consumer : s.consumer.Ok n s.received.length s.sent.length s.ring.data

/-- No element has gone in, and both indices are zero. -/
lemma inv_new (capacity : ℕ) (data : Mem T) : (new capacity data).Inv (capacity + 1) :=
  ⟨⟨by simp [new, RingBuffer.new], by simp [new, RingBuffer.new], by simp [new, RingBuffer.new],
    le_rfl, by simp [new]⟩, .nil, trivial, trivial⟩

/-- **How much a producer may write** that has loaded the read index.  The index may be old, so what
it computes is the room there was then, and that is no more than there is now. -/
lemma Inv.toWrite (h : s.Inv n) {call : EnqueueCall T} {rdIdx : ℤ}
    (hp : s.producer = .loadedReadIndex call rdIdx) :
    ∃ R', R' ≤ s.received.length ∧ s.sent.length < R' + n ∧
      (s.ring.fullInternal rdIdx s.ring.writeIndex = true ↔ s.sent.length + 1 = R' + n) ∧
      s.ring.availableWriteInternal rdIdx s.ring.writeIndex = (R' + n - 1 - s.sent.length : ℕ) := by
  have hok := h.producer
  rw [hp] at hok
  rcases hok with ⟨R', hR, hlt, rfl⟩
  have hle := hR.trans h.turns.le
  refine ⟨R', hR, hlt, ?_, ?_⟩
  · rw [h.turns.write, fullInternal_turns h.turns.storage hle hlt]
  · rw [h.turns.write, availableWriteInternal_turns h.turns.storage hle hlt]
    omega

/-- **How much a consumer may read** that has loaded the write index, which may be old in the same
way. -/
lemma Inv.toRead (h : s.Inv n) {call : DequeueCall} {wrIdx : ℤ}
    (hc : s.consumer = .loadedWriteIndex call wrIdx) :
    ∃ W', s.received.length ≤ W' ∧ W' ≤ s.sent.length ∧
      (s.ring.emptyInternal s.ring.readIndex wrIdx = true ↔ W' = s.received.length) ∧
      s.ring.availableReadInternal s.ring.readIndex wrIdx = (W' - s.received.length : ℕ) := by
  have hok := h.consumer
  rw [hc] at hok
  rcases hok with ⟨W', hlo, hhi, rfl⟩
  have hlt := h.turns.lt
  refine ⟨W', hlo, hhi, ?_, ?_⟩
  · rw [h.turns.read, emptyInternal_turns hlo (by omega)]
  · rw [h.turns.read, availableReadInternal_turns h.turns.storage hlo (by omega)]
    omega

/-- The producer has settled how much it writes: as much as fitted when it loaded the read index, or
as much as it was asked to. -/
lemma Inv.settleWrite (h : s.Inv n) {call : EnqueueCall T} {rdIdx : ℤ}
    (hp : s.producer = .loadedReadIndex call rdIdx) :
    Inv n { s with
      producer := .copying call s.ring.writeIndex
        (min (s.ring.availableWriteInternal rdIdx s.ring.writeIndex) call.count)
        (s.ring.enqueueCopies s.ring.writeIndex call.elements
          (min (s.ring.availableWriteInternal rdIdx s.ring.writeIndex) call.count)) } := by
  obtain ⟨R', hR, hroom, -, havailable⟩ := h.toWrite hp
  have hle := h.turns.le
  set k := min (R' + n - 1 - s.sent.length) call.count
  have hmin : min (s.ring.availableWriteInternal rdIdx s.ring.writeIndex) call.count = (k : ℤ) := by
    omega
  have hw : Writing n s.received.length s.sent.length s.ring.data call
      (s.ring.enqueueCopies s.ring.writeIndex call.elements k) k 0 := by
    refine ⟨by omega, by omega, by omega, by simp, ?_⟩
    rw [h.turns.write, enqueueCopies_turns h.turns.storage (by omega) (by omega) call (by omega)]
    simp
  rw [hmin]
  exact { h with producer := ⟨_, 0, h.turns.write, rfl, hw⟩ }

/-- It has written one more element, which the consumer does not see, since the cell is not between
the two counts. -/
lemma Inv.wrote (h : s.Inv n) {call : EnqueueCall T} {wrIdx toWrite : ℤ} {w : ℕ × T}
    {pending : List (ℕ × T)} (hp : s.producer = .copying call wrIdx toWrite (w :: pending)) :
    Inv n { s with
      ring := { s.ring with data := write s.ring.data w }
      producer := .copying call wrIdx toWrite pending } := by
  have hle := h.turns.le
  have hlt := h.turns.lt
  have hok := h.producer
  rw [hp] at hok
  obtain ⟨k, copied, hidx, hk, hw⟩ := hok
  obtain ⟨x, rfl, hcopied, hw'⟩ := hw.next hle
  have hfits := hw.fits
  have hsame : window (write s.ring.data ((s.sent.length + copied) % n, x)) n
      s.received.length (s.sent.length - s.received.length) = _ :=
    window_update_outside (by omega) (by omega)
  exact ⟨{ h.turns with }, by rw [hsame]; exact h.carries, ⟨k, copied + 1, hidx, hk, hw'⟩,
    h.consumer.write (by omega) (by omega)⟩

/-- It has stored the write index: what it wrote is there, all of it at once. -/
lemma Inv.published (h : s.Inv n) {call : EnqueueCall T} {wrIdx toWrite : ℤ}
    (hp : s.producer = .copying call wrIdx toWrite []) :
    Inv n { s with
      ring := { s.ring with writeIndex := s.ring.incrementIndex wrIdx toWrite }
      producer := .idle
      sent := s.sent ++ call.values.take toWrite.toNat
      enqueued := s.enqueued ++ [toWrite] } := by
  have hle := h.turns.le
  have hok := h.producer
  rw [hp] at hok
  obtain ⟨k, copied, hidx, hk, hw⟩ := hok
  have hcopied := hw.finished
  have hfits := hw.fits
  have hcount := hw.le_count
  have hvalues := call.count_le
  have hlength : (s.sent ++ call.values.take toWrite.toNat).length = s.sent.length + k := by
    simp [hk]
    omega
  have hwritten : window s.ring.data n s.received.length (s.sent.length + k - s.received.length)
      = window s.ring.data n s.received.length (s.sent.length - s.received.length)
        ++ call.values.take toWrite.toNat := by
    have hsplit : s.sent.length + k - s.received.length
        = (s.sent.length - s.received.length) + k := by omega
    rw [hsplit, window_add, Nat.add_sub_cancel' hle, ← hcopied, hw.written, hcopied, hk,
      Int.toNat_natCast]
  have hturns : At { s.ring with writeIndex := s.ring.incrementIndex wrIdx toWrite } n
      s.received.length (s.sent.length + k) := by
    refine ⟨h.turns.storage, h.turns.read, ?_, by omega, hfits⟩
    show s.ring.incrementIndex wrIdx toWrite = _
    rw [hidx, hk, incrementIndex_turn h.turns.storage]
  refine ⟨?_, ?_, trivial, ?_⟩
  · rw [hlength]
    exact hturns
  · rw [hlength, hwritten]
    exact h.carries.put _
  · rw [hlength]
    exact h.consumer.mono (by omega)

/-- The producer's steps keep the invariant, one case for each stage of its call. -/
lemma inv_stepProducer (h : s.Inv n) : s.stepProducer.Inv n := by
  cases hp : s.producer with
  | idle => simpa [stepProducer, hp] using h
  | loadedReadIndex call rdIdx =>
      by_cases hf : s.ring.fullInternal rdIdx s.ring.writeIndex = true
      · simp only [stepProducer, hp, if_pos hf]
        exact { h with producer := trivial }
      · simp only [stepProducer, hp, if_neg hf]
        exact h.settleWrite hp
  | copying call wrIdx toWrite pending =>
      cases pending with
      | cons w pending =>
          simp only [stepProducer, hp]
          exact h.wrote hp
      | nil =>
          simp only [stepProducer, hp]
          exact h.published hp

/-- The consumer has settled how much it reads: as much as was there when it loaded the write index,
or as much as it was asked to. -/
lemma Inv.settleRead (h : s.Inv n) {call : DequeueCall} {wrIdx : ℤ}
    (hc : s.consumer = .loadedWriteIndex call wrIdx) :
    Inv n { s with
      consumer := .copying call s.ring.readIndex
        (min (s.ring.availableReadInternal s.ring.readIndex wrIdx) call.count)
        (s.ring.dequeueCopies s.ring.readIndex call.elements
          (min (s.ring.availableReadInternal s.ring.readIndex wrIdx) call.count)) [] } := by
  obtain ⟨W', hlo, hhi, -, havailable⟩ := h.toRead hc
  have hlt := h.turns.lt
  set k := min (W' - s.received.length) call.count
  have hmin : min (s.ring.availableReadInternal s.ring.readIndex wrIdx) call.count = (k : ℤ) := by
    omega
  have hthere : s.received.length + k ≤ s.sent.length := by omega
  refine { h with consumer := ⟨k, h.turns.read, hmin, hthere, ?_⟩ }
  rw [hmin, h.turns.read, dequeueCopies_turns h.turns.storage (by omega) (by omega)]
  split_ifs with helements
  · exact ⟨0, hthere, Nat.zero_le k, rfl, by simp⟩
  · exact ⟨rfl, rfl⟩

lemma Inv.copied (h : s.Inv n) {call : DequeueCall} {rdIdx toRead : ℤ} {a : ℕ} {pending : List ℕ}
    {seen : List T} (hc : s.consumer = .copying call rdIdx toRead (a :: pending) seen) :
    Inv n { s with consumer := .copying call rdIdx toRead pending (seen ++ [s.ring.data a]) } := by
  have hok := h.consumer
  rw [hc] at hok
  obtain ⟨k, hidx, hk, hthere, hseen⟩ := hok
  refine { h with consumer := ⟨k, hidx, hk, hthere, ?_⟩ }
  split_ifs at hseen ⊢ with helements
  · obtain ⟨j, ht⟩ := hseen
    exact ⟨j + 1, ht.next⟩
  · simp at hseen

/-- It has stored the read index: what it read is gone, and the cells may be written again. -/
lemma Inv.released (h : s.Inv n) {call : DequeueCall} {rdIdx toRead : ℤ} {copied : List T}
    (hc : s.consumer = .copying call rdIdx toRead [] copied) :
    Inv n { s with
      ring := { s.ring with readIndex := s.ring.incrementIndex rdIdx toRead }
      consumer := .idle
      received := s.received ++
        (if call.elements then copied.map some else List.replicate toRead.toNat none)
      dequeued := s.dequeued ++ [toRead] } := by
  have hlt := h.turns.lt
  have hok := h.consumer
  rw [hc] at hok
  obtain ⟨k, hidx, hk, hthere, hseen⟩ := hok
  have htaken : window s.ring.data n s.received.length k
      = (window s.ring.data n s.received.length (s.sent.length - s.received.length)).take k :=
    window_eq_of_eq rfl (by omega)
  set seen := if call.elements then copied.map some else List.replicate toRead.toNat none
    with hseen_eq
  have hshows : List.Forall₂ Shows (window s.ring.data n s.received.length k) seen := by
    rw [hseen_eq]
    split_ifs at hseen ⊢ with helements
    · obtain ⟨j, ht⟩ := hseen
      rw [ht.seen_eq, ht.finished]
      exact shows_map_some _
    · have hnone := shows_replicate_none (window s.ring.data n s.received.length k)
      rw [length_window] at hnone
      rw [hk, Int.toNat_natCast]
      exact hnone
  have hlength : seen.length = k := by
    rw [← hshows.length_eq, length_window]
  have hturns : At { s.ring with readIndex := s.ring.incrementIndex rdIdx toRead } n
      (s.received.length + k) s.sent.length := by
    refine ⟨h.turns.storage, ?_, h.turns.write, hthere, by omega⟩
    show s.ring.incrementIndex rdIdx toRead = _
    rw [hidx, hk, incrementIndex_turn h.turns.storage]
  refine ⟨?_, ?_, ?_, trivial⟩
  · rw [List.length_append, hlength]
    exact hturns
  · have hcarries := h.carries.take (by rw [hlength, ← htaken]; exact hshows)
    rw [hlength, ← window_drop rfl (by omega), Nat.sub_sub] at hcarries
    rw [List.length_append, hlength]
    exact hcarries
  · rw [List.length_append]
    exact h.producer.mono (by omega)

/-- So do the consumer's, whose stages are the same four. -/
lemma inv_stepConsumer (h : s.Inv n) : s.stepConsumer.Inv n := by
  cases hc : s.consumer with
  | idle => simpa [stepConsumer, hc] using h
  | loadedWriteIndex call wrIdx =>
      by_cases he : s.ring.emptyInternal s.ring.readIndex wrIdx = true
      · simp only [stepConsumer, hc, if_pos he]
        exact { h with consumer := trivial }
      · simp only [stepConsumer, hc, if_neg he]
        exact h.settleRead hc
  | copying call rdIdx toRead pending copied =>
      cases pending with
      | cons a pending =>
          simp only [stepConsumer, hc]
          exact h.copied hc
      | nil =>
          simp only [stepConsumer, hc]
          exact h.released hc

/-- **Every step** keeps the invariant.  A thread that begins a call loads an index that is right at
that moment. -/
theorem inv_step (h : s.Inv n) (a : Action T) : (s.step a).Inv n := by
  cases a with
  | enqueue call =>
      cases hp : s.producer with
      | idle =>
          simp only [step, hp]
          exact { h with producer := ⟨s.received.length, le_rfl, h.turns.lt, h.turns.read⟩ }
      | _ => simpa [step, hp] using h
  | producer => exact inv_stepProducer h
  | dequeue call =>
      cases hc : s.consumer with
      | idle =>
          simp only [step, hc]
          exact { h with consumer := ⟨s.sent.length, h.turns.le, le_rfl, h.turns.write⟩ }
      | _ => simpa [step, hc] using h
  | consumer => exact inv_stepConsumer h

/-- So does every interleaving, by induction on the steps. -/
lemma inv_run (h : s.Inv n) (as : List (Action T)) : (run step s as).Inv n :=
  run_invariant (I := Inv n) (fun _ a hI => inv_step hI a) h as

/-! ## First in, first out

The invariant holds of a new ring buffer and is kept by every step, so it holds after every
interleaving.  What the callers see follows from it.
-/

/-- What the indices delimit is what the two counts delimit. -/
lemma Inv.contents_eq (h : s.Inv n) :
    s.contents
      = window s.ring.data n s.received.length (s.sent.length - s.received.length) := by
  have havailable := availableReadInternal_turns h.turns.storage h.turns.le h.turns.lt
  have hcount : (s.ring.availableReadInternal (s.received.length % n : ℕ)
      (s.sent.length % n : ℕ)).toNat = s.sent.length - s.received.length := by omega
  rw [contents, availableRead, h.turns.storage, h.turns.read, h.turns.write, hcount,
    Int.toNat_natCast, Int.toNat_natCast, window_mod]

/-- **First in, first out**, over every interleaving, and never more than fits.  A consumer who
throws nothing away has everything but the contents. -/
theorem carries_of_run (capacity : ℕ) (data : Mem T) (as : List (Action T)) :
    Carries (run step (new capacity data) as).sent (run step (new capacity data) as).received
        (run step (new capacity data) as).contents
      ∧ (∀ xs, (run step (new capacity data) as).received = xs.map some →
          xs ++ (run step (new capacity data) as).contents = (run step (new capacity data) as).sent)
      ∧ (run step (new capacity data) as).contents.length ≤ capacity := by
  have hinv := inv_run (inv_new capacity data) as
  have hlt := hinv.turns.lt
  have hcarries := hinv.carries
  rw [← hinv.contents_eq] at hcarries
  refine ⟨hcarries, ?_, ?_⟩
  · intro xs hreceived
    rw [hreceived] at hcarries
    exact hcarries.append_eq
  · rw [hinv.contents_eq, length_window]
    omega

/-! ## No cell in two hands

Between two steps a thread may have accesses ahead of it.  They are to cells that the other one has
none ahead to.
-/

/-- **Apart from each other**, over every interleaving: a cell the producer is going to write is
none the consumer is going to read, and none that holds an element on the way.  Either thread stays
in the storage. -/
theorem disjoint_of_run (capacity : ℕ) (data : Mem T) (as : List (Action T)) :
    (∀ a ∈ (run step (new capacity data) as).producer.cells,
        a ∉ (run step (new capacity data) as).consumer.cells
        ∧ a ∉ slots (capacity + 1) (run step (new capacity data) as).received.length
            (run step (new capacity data) as).contents.length)
      ∧ ∀ a ∈ (run step (new capacity data) as).producer.cells
          ++ (run step (new capacity data) as).consumer.cells, a < capacity + 1 := by
  have hinv := inv_run (inv_new capacity data) as
  set s := run step (new capacity data) as
  have hle := hinv.turns.le
  refine ⟨?_, ?_⟩
  · intro a ha
    rcases hinv.producer.mem_cells ha with ⟨t, hlo, hhi, rfl⟩
    have hapart : ∀ u, s.received.length ≤ u → u < s.sent.length →
        u % (capacity + 1) ≠ t % (capacity + 1) := by
      intro u hu hu'
      exact mod_ne_mod hu (by omega) (by omega) hhi (by omega)
    refine ⟨?_, ?_⟩
    · intro hread
      rcases hinv.consumer.mem_cells hread with ⟨u, hu, hu', heq⟩
      exact hapart u hu hu' heq
    · intro hthere
      rw [hinv.contents_eq, length_window] at hthere
      rcases mem_slots.1 hthere with ⟨u, hu, hu', heq⟩
      exact hapart u hu (by omega) heq
  · intro a ha
    rcases List.mem_append.1 ha with ha | ha
    · rcases hinv.producer.mem_cells ha with ⟨t, -, -, rfl⟩
      exact Nat.mod_lt t (Nat.succ_pos capacity)
    · rcases hinv.consumer.mem_cells ha with ⟨t, -, -, rfl⟩
      exact Nat.mod_lt t (Nat.succ_pos capacity)

/-! ## A call returns

Neither thread ever waits for the other, and a call makes a bounded number of steps of its own.
What it returns depends on the moment it began, in which it loaded the other thread's index, and on
nothing that has happened since.
-/

section Returning

variable {s₀ : Threads T} {call : EnqueueCall T} {m : ℕ}

/-- **What a producer's steps still have to do**, at most: the call returns `k`, and `m` of the
producer's own steps are enough. -/
structure Enqueuing (n : ℕ) (s₀ : Threads T) (call : EnqueueCall T) (k m : ℕ) (s : Threads T) :
    Prop where
  inv : s.Inv n
  sent : s.sent = s₀.sent
  enqueued : s.enqueued = s₀.enqueued
  plan : (∃ rdIdx, s.producer = .loadedReadIndex call rdIdx ∧ call.count + 2 ≤ m ∧
      min (s.ring.availableWriteInternal rdIdx s.ring.writeIndex) call.count = k) ∨
    ∃ wrIdx pending, s.producer = .copying call wrIdx k pending ∧ pending.length + 1 ≤ m

/-- The call has returned `k`, and its first `k` elements are on their way. -/
def Enqueued (s₀ : Threads T) (call : EnqueueCall T) (k : ℕ) (s : Threads T) : Prop :=
  s₀.enqueued ++ [(k : ℤ)] <+: s.enqueued
    ∧ s₀.sent ++ call.values.take k <+: s.sent

omit [Inhabited T] in
lemma stepConsumer_frame (s : Threads T) :
    s.stepConsumer.producer = s.producer ∧ s.stepConsumer.sent = s.sent
      ∧ s.stepConsumer.enqueued = s.enqueued
      ∧ s.stepConsumer.ring.writeIndex = s.ring.writeIndex
      ∧ s.stepConsumer.ring.storageCapacity = s.ring.storageCapacity := by
  cases hc : s.consumer with
  | idle => simp [stepConsumer, hc]
  | loadedWriteIndex call wrIdx =>
      simp only [stepConsumer, hc]
      split_ifs <;> simp
  | copying call rdIdx toRead pending copied => cases pending <;> simp [stepConsumer, hc]

lemma stepProducer_frame (s : Threads T) :
    s.stepProducer.consumer = s.consumer ∧ s.stepProducer.received = s.received
      ∧ s.stepProducer.dequeued = s.dequeued
      ∧ s.stepProducer.ring.readIndex = s.ring.readIndex
      ∧ s.stepProducer.ring.storageCapacity = s.ring.storageCapacity := by
  cases hp : s.producer with
  | idle => simp [stepProducer, hp]
  | loadedReadIndex call rdIdx =>
      simp only [stepProducer, hp]
      split_ifs <;> simp
  | copying call wrIdx toWrite pending => cases pending <;> simp [stepProducer, hp]

lemma sent_step (s : Threads T) (a : Action T) :
    s.enqueued <+: (s.step a).enqueued ∧ s.sent <+: (s.step a).sent := by
  cases a with
  | enqueue call => cases hp : s.producer <;> simp [step, hp]
  | dequeue call => cases hc : s.consumer <;> simp [step, hc]
  | consumer =>
      rcases stepConsumer_frame s with ⟨-, hsent, henqueued, -, -⟩
      simp [step, hsent, henqueued]
  | producer =>
      cases hp : s.producer with
      | idle => simp [step, stepProducer, hp]
      | loadedReadIndex call rdIdx =>
          simp only [step, stepProducer, hp]
          split_ifs <;> simp
      | copying call wrIdx toWrite pending => cases pending <;> simp [step, stepProducer, hp]

lemma received_step (s : Threads T) (a : Action T) :
    s.dequeued <+: (s.step a).dequeued ∧ s.received <+: (s.step a).received := by
  cases a with
  | enqueue call => cases hp : s.producer <;> simp [step, hp]
  | dequeue call => cases hc : s.consumer <;> simp [step, hc]
  | producer =>
      rcases stepProducer_frame s with ⟨-, hreceived, hdequeued, -, -⟩
      simp [step, hreceived, hdequeued]
  | consumer =>
      cases hc : s.consumer with
      | idle => simp [step, stepConsumer, hc]
      | loadedWriteIndex call wrIdx =>
          simp only [step, stepConsumer, hc]
          split_ifs <;> simp
      | copying call rdIdx toRead pending copied =>
          cases pending <;> simp [step, stepConsumer, hc]

/-- What is done stays done: the logs of a caller only grow. -/
lemma Enqueued.step (h : Enqueued s₀ call k s) (a : Action T) : Enqueued s₀ call k (s.step a) :=
  ⟨h.1.trans (sent_step s a).1, h.2.trans (sent_step s a).2⟩

/-- A step of the producer brings its call closer to the end: it settles, writes a cell, or
returns. -/
lemma Enqueuing.own (h : Enqueuing n s₀ call k (m + 1) s) :
    Enqueued s₀ call k (s.step .producer) ∨ Enqueuing n s₀ call k m (s.step .producer) := by
  have hinv := inv_stepProducer h.inv
  rcases h.plan with ⟨rdIdx, hp, hm, hk⟩ | ⟨wrIdx, pending, hp, hm⟩
  · rcases h.inv.toWrite hp with ⟨R', hR, hroom, hfull, havailable⟩
    by_cases hf : s.ring.fullInternal rdIdx s.ring.writeIndex = true
    · left
      have hturn := hfull.1 hf
      have hzero : k = 0 := by omega
      simp only [step, stepProducer, hp, if_pos hf, Enqueued, h.enqueued, h.sent, hzero]
      simp
    · right
      have hstep : s.stepProducer =
          { s with
            producer := .copying call s.ring.writeIndex k
              (s.ring.enqueueCopies s.ring.writeIndex call.elements k) } := by
        simp only [stepProducer, hp, if_neg hf, hk]
      show Enqueuing n s₀ call k m s.stepProducer
      have hok := hinv.producer
      rw [hstep] at hinv hok ⊢
      rcases hok with ⟨k', copied, -, -, hw⟩
      have hlength := hw.length_le
      exact ⟨hinv, h.sent, h.enqueued, .inr ⟨_, _, rfl, by omega⟩⟩
  · cases pending with
    | cons w pending =>
        right
        refine ⟨hinv, ?_, ?_, .inr ⟨wrIdx, pending, ?_, by simpa using hm⟩⟩ <;>
          simp [step, stepProducer, hp, h.sent, h.enqueued]
    | nil =>
        left
        simp only [step, stepProducer, hp, Enqueued, h.enqueued, h.sent]
        simp

/-- A step of anybody else does not set it back, as nothing the consumer does can make a producer
wait. -/
lemma Enqueuing.other (h : Enqueuing n s₀ call k m s) {a : Action T} (ha : a ≠ .producer) :
    Enqueuing n s₀ call k m (s.step a) := by
  have hinv := inv_step h.inv a
  have hbusy : s.producer ≠ .idle := by
    rcases h.plan with ⟨_, hp, -⟩ | ⟨_, _, hp, -⟩ <;> simp [hp]
  have hframe : (s.step a).producer = s.producer ∧ (s.step a).sent = s.sent
      ∧ (s.step a).enqueued = s.enqueued
      ∧ (s.step a).ring.writeIndex = s.ring.writeIndex
      ∧ (s.step a).ring.storageCapacity = s.ring.storageCapacity := by
    cases a with
    | producer => exact absurd rfl ha
    | consumer => exact stepConsumer_frame s
    | dequeue call => cases hc : s.consumer <;> simp [step, hc]
    | enqueue call => cases hp : s.producer <;> simp_all [step]
  rcases hframe with ⟨hp, hsent, henqueued, hindex, hstorage⟩
  refine ⟨hinv, hsent.trans h.sent, henqueued.trans h.enqueued, ?_⟩
  simpa only [hp, availableWriteInternal, hindex, hstorage] using h.plan

/-- **A call of `enqueue` returns** after at most `count + 2` of the producer's own steps, however
the consumer's come between.  What it returns, and puts on the way, is as much as fitted when it
began. -/
theorem enqueue_of_run (capacity : ℕ) (data : Mem T) (as bs : List (Action T))
    (call : EnqueueCall T) (hidle : (run step (new capacity data) as).producer = .idle)
    (henough : call.count + 2 ≤ bs.countP fun a => a matches .producer) :
    Enqueued (run step (new capacity data) as) call
      (min (run step (new capacity data) as).ring.availableWrite call.count).toNat
      (run step (new capacity data) (as ++ .enqueue call :: bs)) := by
  have hinv := inv_run (inv_new capacity data) as
  set s := run step (new capacity data) as with hs
  have hroom : s.ring.availableWrite
      = (capacity - (s.sent.length - s.received.length) : ℕ) := by
    have hle := hinv.turns.le
    have hlt := hinv.turns.lt
    rw [availableWrite, hinv.turns.read, hinv.turns.write,
      availableWriteInternal_turns hinv.turns.storage hle hlt]
    omega
  have hk : min s.ring.availableWrite call.count
      = ((min s.ring.availableWrite call.count).toNat : ℤ) := by omega
  rw [run_append, ← hs, run_cons]
  set k := (min s.ring.availableWrite call.count).toNat
  refine run_completes (Enqueuing (capacity + 1) s call k) ?_ ?_ ?_ ?_ ?_ henough
  · rintro s' ⟨-, -, -, ⟨_, -, hm, -⟩ | ⟨_, _, -, hm⟩⟩ <;> omega
  · rintro m s' a ha h
    cases a <;> simp at ha
    exact h.own
  · rintro m s' a ha h
    exact h.other (by rintro rfl; simp at ha)
  · rintro s' a h
    exact h.step a
  · have hstart : s.step (.enqueue call)
        = { s with producer := .loadedReadIndex call s.ring.readIndex } := by
      simp only [step, hidle]
    refine ⟨inv_step hinv _, by rw [hstart], by rw [hstart], .inl ⟨s.ring.readIndex, by rw [hstart],
      le_rfl, ?_⟩⟩
    rw [hstart]
    exact hk

/-- Two elements into an empty ring buffer, with a consumer coming between. -/
theorem enqueue_of_run_two :
    Enqueued (run step (new (3 : ℕ) fun _ => 0) []) ⟨some [7, 8], 2, by simp⟩ 2
      (run step (new (3 : ℕ) fun _ => 0) ([] ++ .enqueue ⟨some [7, 8], 2, by simp⟩ ::
        [.producer, .dequeue ⟨true, 1⟩, .producer, .consumer, .producer, .producer])) :=
  enqueue_of_run 3 (fun _ => 0) [] _ ⟨some [7, 8], 2, by simp⟩ rfl (by decide)

variable {call' : DequeueCall}

/-- **What a consumer's steps still have to do**, at most, and that the elements it is after stay
where they are. -/
structure Dequeuing (n : ℕ) (s₀ : Threads T) (call : DequeueCall) (k m : ℕ) (s : Threads T) :
    Prop where
  inv : s.Inv n
  received : s.received = s₀.received
  dequeued : s.dequeued = s₀.dequeued
  sent : s₀.sent <+: s.sent
  there : s₀.received.length + k ≤ s₀.sent.length
  plan : (∃ wrIdx, s.consumer = .loadedWriteIndex call wrIdx ∧ call.count + 2 ≤ m ∧
      min (s.ring.availableReadInternal s.ring.readIndex wrIdx) call.count = k) ∨
    ∃ rdIdx pending copied, s.consumer = .copying call rdIdx k pending copied ∧
      pending.length + 1 ≤ m

/-- The call has returned `k`, and has delivered the `k` elements longest on their way, or has
thrown them away. -/
def Dequeued (s₀ : Threads T) (call : DequeueCall) (k : ℕ) (s : Threads T) : Prop :=
  s₀.dequeued ++ [(k : ℤ)] <+: s.dequeued
    ∧ s₀.received ++ (if call.elements then
        ((s₀.sent.drop s₀.received.length).take k).map some else List.replicate k none)
      <+: s.received

lemma Dequeued.step (h : Dequeued s₀ call' k s) (a : Action T) : Dequeued s₀ call' k (s.step a) :=
  ⟨h.1.trans (received_step s a).1, h.2.trans (received_step s a).2⟩

/-- The elements the call is after are the same whatever has been sent since. -/
lemma Dequeuing.window_eq (h : Dequeuing n s₀ call' k m s) :
    window s.ring.data n s.received.length k = (s₀.sent.drop s₀.received.length).take k := by
  have hthere := h.there
  rcases h.sent with ⟨since, hsent⟩
  have hlength := congrArg List.length hsent
  rw [List.length_append] at hlength
  rw [window_eq_of_eq h.inv.carries.left.symm (by rw [h.received]; omega), h.received, ← hsent,
    List.drop_append_of_le_length (by omega),
    List.take_append_of_le_length (by rw [List.length_drop]; omega)]

/-- A step of the consumer brings its call closer to the end, in the same way. -/
lemma Dequeuing.own (h : Dequeuing n s₀ call' k (m + 1) s) :
    Dequeued s₀ call' k (s.step .consumer) ∨ Dequeuing n s₀ call' k m (s.step .consumer) := by
  have hinv := inv_stepConsumer h.inv
  rcases h.plan with ⟨wrIdx, hc, hm, hk⟩ | ⟨rdIdx, pending, copied, hc, hm⟩
  · rcases h.inv.toRead hc with ⟨W', hlo, hhi, hempty, havailable⟩
    by_cases he : s.ring.emptyInternal s.ring.readIndex wrIdx = true
    · left
      have hturn := hempty.1 he
      have hzero : k = 0 := by omega
      simp only [step, stepConsumer, hc, if_pos he, Dequeued, h.dequeued, h.received, hzero]
      simp
    · right
      have hstep : s.stepConsumer =
          { s with
            consumer := .copying call' s.ring.readIndex k
              (s.ring.dequeueCopies s.ring.readIndex call'.elements k) [] } := by
        simp only [stepConsumer, hc, if_neg he, hk]
      have hcopies : (s.ring.dequeueCopies s.ring.readIndex call'.elements k).length ≤ k := by
        have hlt := h.inv.turns.lt
        rw [h.inv.turns.read, dequeueCopies_turns h.inv.turns.storage (by omega) (by omega)]
        split_ifs <;> simp
      show Dequeuing n s₀ call' k m s.stepConsumer
      rw [hstep] at hinv ⊢
      exact ⟨hinv, h.received, h.dequeued, h.sent, h.there, .inr ⟨_, _, _, rfl, by omega⟩⟩
  · cases pending with
    | cons a pending =>
        right
        refine ⟨hinv, ?_, ?_, ?_, h.there,
          .inr ⟨rdIdx, pending, copied ++ [s.ring.data a], ?_, by simpa using hm⟩⟩ <;>
          simp [step, stepConsumer, hc, h.received, h.dequeued, h.sent]
    | nil =>
        left
        have hok := h.inv.consumer
        rw [hc] at hok
        rcases hok with ⟨k', -, hk, -, hseen⟩
        have hwindow := h.window_eq
        simp only [step, stepConsumer, hc, Dequeued, h.dequeued, h.received]
        refine ⟨List.prefix_refl _, ?_⟩
        split_ifs at hseen ⊢ with helements
        · rcases hseen with ⟨j, ht⟩
          have hj := ht.finished
          have hkk : k' = k := by omega
          rw [ht.seen_eq, hj, hkk, hwindow]
        · simp

/-- A step of anybody else does not set it back. -/
lemma Dequeuing.other (h : Dequeuing n s₀ call' k m s) {a : Action T} (ha : a ≠ .consumer) :
    Dequeuing n s₀ call' k m (s.step a) := by
  have hbusy : s.consumer ≠ .idle := by
    rcases h.plan with ⟨_, hc, -⟩ | ⟨_, _, _, hc, -⟩ <;> simp [hc]
  have hframe : (s.step a).consumer = s.consumer ∧ (s.step a).received = s.received
      ∧ (s.step a).dequeued = s.dequeued
      ∧ (s.step a).ring.readIndex = s.ring.readIndex
      ∧ (s.step a).ring.storageCapacity = s.ring.storageCapacity := by
    cases a with
    | consumer => exact absurd rfl ha
    | producer => exact stepProducer_frame s
    | enqueue call => cases hp : s.producer <;> simp [step, hp]
    | dequeue call => cases hc : s.consumer <;> simp_all [step]
  rcases hframe with ⟨hc, hreceived, hdequeued, hindex, hstorage⟩
  refine ⟨inv_step h.inv a, hreceived.trans h.received, hdequeued.trans h.dequeued,
    h.sent.trans (sent_step s a).2, h.there, ?_⟩
  simpa only [hc, availableReadInternal, hindex, hstorage] using h.plan

/-- **A call of `dequeue` returns** after at most `count + 2` of the consumer's own steps, however
the producer's come between.  What it returns, and delivers, is as much as was there when it
began. -/
theorem dequeue_of_run (capacity : ℕ) (data : Mem T) (as bs : List (Action T))
    (call : DequeueCall) (hidle : (run step (new capacity data) as).consumer = .idle)
    (henough : call.count + 2 ≤ bs.countP fun a => a matches .consumer) :
    Dequeued (run step (new capacity data) as) call
      (min (run step (new capacity data) as).ring.availableRead call.count).toNat
      (run step (new capacity data) (as ++ .dequeue call :: bs)) := by
  have hinv := inv_run (inv_new capacity data) as
  set s := run step (new capacity data) as with hs
  have hle := hinv.turns.le
  have hthere : s.ring.availableRead = (s.sent.length - s.received.length : ℕ) := by
    rw [availableRead, hinv.turns.read, hinv.turns.write,
      availableReadInternal_turns hinv.turns.storage hle hinv.turns.lt]
    omega
  have hk : min s.ring.availableRead call.count
      = ((min s.ring.availableRead call.count).toNat : ℤ) := by omega
  have hkle : s.received.length + (min s.ring.availableRead call.count).toNat ≤ s.sent.length := by
    omega
  rw [run_append, ← hs, run_cons]
  set k := (min s.ring.availableRead call.count).toNat
  refine run_completes (Dequeuing (capacity + 1) s call k) ?_ ?_ ?_ ?_ ?_ henough
  · rintro s' ⟨-, -, -, -, -, ⟨_, -, hm, -⟩ | ⟨_, _, _, -, hm⟩⟩ <;> omega
  · rintro m s' a ha h
    cases a <;> simp at ha
    exact h.own
  · rintro m s' a ha h
    exact h.other (by rintro rfl; simp at ha)
  · rintro s' a h
    exact h.step a
  · have hstart : s.step (.dequeue call)
        = { s with consumer := .loadedWriteIndex call s.ring.writeIndex } := by
      simp only [step, hidle]
    refine ⟨inv_step hinv _, by rw [hstart], by rw [hstart], by rw [hstart], hkle,
      .inl ⟨s.ring.writeIndex, by rw [hstart], le_rfl, ?_⟩⟩
    rw [hstart]
    exact hk

/-- One element out of two, while a third is on its way in. -/
theorem dequeue_of_run_one :
    Dequeued
      (run step (new (3 : ℕ) fun _ => 0)
        [.enqueue ⟨some [7, 8], 2, by simp⟩, .producer, .producer, .producer, .producer])
      ⟨true, 1⟩ 1
      (run step (new (3 : ℕ) fun _ => 0)
        ([.enqueue ⟨some [7, 8], 2, by simp⟩, .producer, .producer, .producer, .producer]
          ++ .dequeue ⟨true, 1⟩ ::
            [.enqueue ⟨none, 1, by simp⟩, .consumer, .producer, .consumer, .consumer])) :=
  dequeue_of_run 3 (fun _ => 0) _ _ ⟨true, 1⟩ rfl (by decide)

end Returning

/-! ## A thread on its own

Without the other thread's steps between its own, a call does what the sequential functions say.
-/

/-- The copies one after another are the copies at once. -/
lemma run_copying (s : Threads T) (call : EnqueueCall T) (wrIdx toWrite : ℤ)
    (pending : List (ℕ × T)) :
    run step { s with producer := .copying call wrIdx toWrite pending }
        (List.replicate pending.length .producer)
      = { s with
          ring := { s.ring with data := pending.foldl write s.ring.data }
          producer := .copying call wrIdx toWrite [] } := by
  induction pending generalizing s with
  | nil => rfl
  | cons w pending ih => exact ih { s with ring := { s.ring with data := write s.ring.data w } }

/-- **`enqueue` alone** is the sequential `enqueue`. -/
theorem enqueue_alone (s : Threads T) (call : EnqueueCall T) (hidle : s.producer = .idle) :
    ∃ m, run step s (.enqueue call :: List.replicate m .producer) =
      { s with
        ring := (s.ring.enqueue call.elements call.count).2
        sent := s.sent ++ call.values.take
          (s.ring.enqueue call.elements call.count).1.toNat
        enqueued := s.enqueued ++ [(s.ring.enqueue call.elements call.count).1] } := by
  by_cases hf : s.ring.fullInternal s.ring.readIndex s.ring.writeIndex = true
  · refine ⟨1, ?_⟩
    simp [step, stepProducer, hidle, hf, RingBuffer.enqueue]
  · set toWrite := min (s.ring.availableWriteInternal s.ring.readIndex s.ring.writeIndex)
      call.count with htoWrite
    set pending := s.ring.enqueueCopies s.ring.writeIndex call.elements toWrite
    refine ⟨1 + pending.length + 1, ?_⟩
    rw [List.replicate_add, List.replicate_add, ← List.cons_append, run_append,
      ← List.cons_append, run_append]
    have hstart : run step s (.enqueue call :: List.replicate 1 .producer)
        = { s with producer := .copying call s.ring.writeIndex toWrite pending } := by
      simp [step, stepProducer, hidle, hf, htoWrite, pending]
    rw [hstart, run_copying]
    simp [step, stepProducer, hf, RingBuffer.enqueue, htoWrite, pending, hidle, incrementIndex]

lemma run_copying_out (s : Threads T) (call : DequeueCall) (rdIdx toRead : ℤ) (pending : List ℕ)
    (copied : List T) :
    run step { s with consumer := .copying call rdIdx toRead pending copied }
        (List.replicate pending.length .consumer)
      = { s with
          consumer := .copying call rdIdx toRead [] (copied ++ pending.map s.ring.data) } := by
  induction pending generalizing copied with
  | nil => simp
  | cons a pending ih =>
      rw [List.map_cons, ← List.singleton_append (l := pending.map _), ← List.append_assoc, ← ih]
      rfl

/-- **`dequeue` alone** is the sequential `dequeue`. -/
theorem dequeue_alone (s : Threads T) (call : DequeueCall) (hidle : s.consumer = .idle) :
    ∃ m, run step s (.dequeue call :: List.replicate m .consumer) =
      { s with
        ring := (s.ring.dequeue call.elements call.count).2.2
        received := s.received ++
          (if call.elements then (s.ring.dequeue call.elements call.count).2.1.map some
            else List.replicate (s.ring.dequeue call.elements call.count).1.toNat none)
        dequeued := s.dequeued ++ [(s.ring.dequeue call.elements call.count).1] } := by
  by_cases he : s.ring.emptyInternal s.ring.readIndex s.ring.writeIndex = true
  · refine ⟨1, ?_⟩
    simp [step, stepConsumer, hidle, he, RingBuffer.dequeue]
  · set toRead := min (s.ring.availableReadInternal s.ring.readIndex s.ring.writeIndex)
      call.count with htoRead
    set pending := s.ring.dequeueCopies s.ring.readIndex call.elements toRead
    refine ⟨1 + pending.length + 1, ?_⟩
    rw [List.replicate_add, List.replicate_add, ← List.cons_append, run_append,
      ← List.cons_append, run_append]
    have hstart : run step s (.dequeue call :: List.replicate 1 .consumer)
        = { s with consumer := .copying call s.ring.readIndex toRead pending [] } := by
      simp [step, stepConsumer, hidle, he, htoRead, pending]
    rw [hstart, run_copying_out]
    simp [step, stepConsumer, he, RingBuffer.dequeue, htoRead, pending, hidle]

end Threads

end RingBuffer

end MinSeq
