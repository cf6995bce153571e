import Mathlib.Order.Nat
import Mathlib.Data.Nat.Find
import Mathlib.Data.List.Basic
import Santa.Library.Runs

/-!
The stream that compresses telemetry. A caller gets the whole input buffer, writes into it and
backs up over what it did not need; the next call passes the rest to the compressor, whose output
goes through an output buffer into the buffers of the stream below, which have any sizes. The
compressor is any that keeps to its documentation.
-/
namespace SantaZstdOutputStream

abbrev Bytes := List UInt8

/-! ### The compressor and the stream below -/

inductive EndDirective where
  | continue
  | end
  deriving DecidableEq, Repr

structure CompressResult (S : Type) where
  state : S
  consumed : Nat
  produced : Bytes
  remaining : Nat

def CompressResult.unfinished {S : Type} (r : CompressResult S) (directive : EndDirective)
    (input : Bytes) : Bool :=
  match directive with
  | .end => r.remaining ≠ 0
  | .continue => r.consumed < input.length

/-- `compressStream2` takes the room in the output buffer and the input that is left; `none` is an
    error. The end directive is finished only when all input was taken. With some room each call
    leaves less `work`. -/
structure Zstd (S : Type) where
  compressStream2 : S → EndDirective → Nat → Bytes → Option (CompressResult S)
  consumed_le : ∀ {s directive room input r},
    compressStream2 s directive room input = some r → r.consumed ≤ input.length
  produced_le : ∀ {s directive room input r},
    compressStream2 s directive room input = some r → r.produced.length ≤ room
  ended : ∀ {s room input r}, compressStream2 s .end room input = some r → r.remaining = 0 →
    r.consumed = input.length
  work : S → EndDirective → Bytes → Nat
  progress : ∀ {s directive room input r}, 0 < room →
    compressStream2 s directive room input = some r → r.unfinished directive input = true →
      work r.state directive (input.drop r.consumed) < work s directive input

/-- The sizes of the buffers that the stream below returns. Some may be empty, but never all from
    some point on. -/
structure Underlying where
  sizes : Nat → Nat
  soon : ∀ k, ∃ more, 0 < sizes (k + more)

structure Sink where
  written : Bytes
  buffers : Nat
  deriving DecidableEq, Repr

def Underlying.next (u : Underlying) (sink : Sink) : Sink :=
  ⟨sink.written ++ List.replicate (u.sizes sink.buffers) 0, sink.buffers + 1⟩

def Sink.memcpy (sink : Sink) (size : Nat) (data : Bytes) : Sink :=
  let start := sink.written.length - size
  { sink with
    written := sink.written.take start ++ data ++ sink.written.drop (start + data.length) }

def Sink.backUp (sink : Sink) (count : Nat) : Sink :=
  { sink with written := sink.written.take (sink.written.length - count) }

/-! ### The stream -/

structure Buffer where
  bytes : Bytes
  positive : 0 < bytes.length

def Buffer.size (b : Buffer) : Nat := b.bytes.length

def Buffer.put (b : Buffer) (start : Nat) (data : Bytes) : Buffer where
  bytes := b.bytes.take start ++ data ++ b.bytes.drop (start + data.length)
  positive := by
    have positive := b.positive
    simp only [List.length_append, List.length_take, List.length_drop]
    omega

/-- The compressor in use, with all that went in and came out. -/
structure Session (S : Type) where
  state : S
  passed : Bytes
  produced : Bytes

def Session.after {S : Type} (session : Session S) (input : Bytes) (r : CompressResult S) :
    Session S :=
  ⟨r.state, session.passed ++ input.take r.consumed, session.produced ++ r.produced⟩

structure ZstdOutputStream (S : Type) where
  sink : Sink
  cstream : Session S
  inputBuffer : Buffer
  inputAvailable : Nat
  outputBuffer : Buffer
  byteCount : Int

def Underlying.wait (u : Underlying) (buffers : Nat) : Nat := Nat.find (u.soon buffers)

theorem Underlying.wait_lt (u : Underlying) {buffers : Nat} (empty : ¬ 0 < u.sizes buffers) :
    u.wait (buffers + 1) < u.wait buffers := by
  have found : 0 < u.sizes (buffers + u.wait buffers) := Nat.find_spec (u.soon buffers)
  obtain ⟨n, wait⟩ : ∃ n, u.wait buffers = n + 1 := by
    refine Nat.exists_eq_succ_of_ne_zero fun here => ?_
    rw [here] at found
    exact empty found
  rw [wait, ← Nat.add_assoc, Nat.add_right_comm] at found
  rw [wait, Nat.lt_succ_iff]
  exact Nat.find_min' _ found

def flushLoop (u : Underlying) (data : Bytes) (sink : Sink) : Sink :=
  if data.length = 0 then sink
  else
    let size := u.sizes sink.buffers
    let toWrite := min data.length size
    let filled := (u.next sink).memcpy size (data.take toWrite)
    let written := if toWrite < size then (filled.backUp (size - toWrite)).written
      else filled.written
    flushLoop u (data.drop toWrite) ⟨written, sink.buffers + 1⟩
termination_by (data.length, u.wait sink.buffers)
decreasing_by
  rename_i more
  rw [List.length_drop]
  by_cases room : 0 < u.sizes sink.buffers
  · exact Prod.Lex.left _ _ (by omega)
  · exact Prod.Lex.right' _ (Nat.sub_le _ _) (u.wait_lt room)

/-- Nothing to write means the whole buffer. -/
def flushOutput {S : Type} (u : Underlying) (s : ZstdOutputStream S) (bytesToWrite : Nat) :
    ZstdOutputStream S :=
  let bytesToWrite := if bytesToWrite = 0 then s.outputBuffer.size else bytesToWrite
  { s with sink := flushLoop u (s.outputBuffer.bytes.take bytesToWrite) s.sink }

def ZstdOutputStream.took {S : Type} (s : ZstdOutputStream S) (u : Underlying) (input : Bytes)
    (r : CompressResult S) : ZstdOutputStream S :=
  let s := { s with
    cstream := s.cstream.after input r
    outputBuffer := s.outputBuffer.put 0 r.produced }
  if r.produced.length > 0 then flushOutput u s r.produced.length else s

theorem took_cstream {S : Type} (s : ZstdOutputStream S) (u : Underlying) (input : Bytes)
    (r : CompressResult S) : (s.took u input r).cstream = s.cstream.after input r := by
  unfold ZstdOutputStream.took
  split
  · rfl
  · rfl

def compressLoop {S : Type} (z : Zstd S) (u : Underlying) (directive : EndDirective)
    (input : Bytes) (s : ZstdOutputStream S) : Bool × ZstdOutputStream S :=
  match _call : z.compressStream2 s.cstream.state directive s.outputBuffer.size input with
  | none => (false, s)
  | some r =>
      if _more : r.unfinished directive input then
        compressLoop z u directive (input.drop r.consumed) (s.took u input r)
      else (true, s.took u input r)
termination_by z.work s.cstream.state directive input
decreasing_by
  rw [took_cstream]
  exact z.progress s.outputBuffer.positive _call _more

def compressAndFlush {S : Type} (z : Zstd S) (u : Underlying) (directive : EndDirective)
    (s : ZstdOutputStream S) : Bool × ZstdOutputStream S :=
  match compressLoop z u directive (s.inputBuffer.bytes.take s.inputAvailable) s with
  | (true, s) => (true, { s with inputAvailable := 0 })
  | (false, s) => (false, s)

def ZstdOutputStream.provide {S : Type} (s : ZstdOutputStream S) : ZstdOutputStream S :=
  { s with
    inputAvailable := s.inputBuffer.size
    byteCount := s.byteCount + s.inputBuffer.size }

def next {S : Type} (z : Zstd S) (u : Underlying) (s : ZstdOutputStream S) :
    Bool × ZstdOutputStream S :=
  if s.inputAvailable > 0 then
    match compressAndFlush z u .continue s with
    | (false, s) => (false, s)
    | (true, s) => (true, s.provide)
  else (true, s.provide)

def backUp {S : Type} (s : ZstdOutputStream S) (count : Int) : ZstdOutputStream S :=
  if count < 0 ∨ count.toNat > s.inputAvailable then s
  else { s with
    inputAvailable := s.inputAvailable - count.toNat
    byteCount := s.byteCount - count }

def close {S : Type} (z : Zstd S) (u : Underlying) (s : ZstdOutputStream S) :
    Bool × ZstdOutputStream S := compressAndFlush z u .end s

/-! ### The stream and its caller -/

/-- The last method was Next and returned a buffer; the caller keeps `last` bytes of the last
    buffer, and kept `kept` of those before. `failed` is set when the compressor returned an
    error. -/
structure System (S : Type) where
  stream : ZstdOutputStream S
  handedOut : Bool
  last : Nat
  kept : Bytes
  failed : Bool
  closed : Bool

def System.start {S : Type} (state : S) (inputBuffer outputBuffer : Buffer) : System S :=
  ⟨⟨⟨[], 0⟩, ⟨state, [], []⟩, inputBuffer, 0, outputBuffer, 0⟩, false, 0, [], false, false⟩

/-- The bytes that the caller keeps of the last buffer, which it shares with the stream. -/
def System.lastKept {S : Type} (s : System S) : Bytes := s.stream.inputBuffer.bytes.take s.last

/-- The caller writes into the buffer that it was handed, and backs up a number of bytes. -/
inductive Label where
  | next
  | put (start : Nat) (data : Bytes)
  | backUp (count : Nat)
  | close

/-- What the contract allows: nothing after the stream was closed, and only that after a failure;
    the buffer belongs to the caller until it backs up, by no more than there is. -/
def step {S : Type} (z : Zstd S) (u : Underlying) (s : System S) : Label → Option (System S)
  | .next =>
      if s.closed ∨ s.failed then none
      else match next z u s.stream with
        | (true, stream) => some ⟨stream, true, stream.inputBuffer.size, s.kept ++ s.lastKept,
            false, false⟩
        | (false, stream) => some ⟨stream, false, 0, s.kept ++ s.lastKept, true, false⟩
  | .put start data =>
      if s.handedOut ∧ start + data.length ≤ s.last then
        some { s with stream := { s.stream with
          inputBuffer := s.stream.inputBuffer.put start data } }
      else none
  | .backUp count =>
      if s.handedOut ∧ count ≤ s.last then
        some { s with stream := backUp s.stream count, handedOut := false, last := s.last - count }
      else none
  | .close =>
      if s.closed then none
      else
        let (ok, stream) := close z u s.stream
        some ⟨stream, false, 0, s.kept ++ s.lastKept, s.failed || !ok, true⟩

/-- Unless it failed, the compressor was passed what the caller kept of the buffers before the last
    one, and of that one too when the stream is closed; and what it produced is in the stream
    below. -/
structure Safe {S : Type} (s : System S) : Prop where
  passed : s.failed = false → s.stream.cstream.passed = s.kept
  reached : s.failed = false → s.stream.sink.written = s.stream.cstream.produced

/-! ### What one call writes and passes -/

theorem memcpy_next (u : Underlying) (sink : Sink) {data : Bytes} {size : Nat}
    (returned : u.sizes sink.buffers = size) :
    ((u.next sink).memcpy size data).written =
      sink.written ++ data ++ List.replicate (size - data.length) 0 := by
  have start : (sink.written ++ List.replicate size (0 : UInt8)).length - size =
      sink.written.length := by
    rw [List.length_append, List.length_replicate, Nat.add_sub_cancel]
  simp only [Sink.memcpy, Underlying.next, returned, start]
  rw [List.take_left, ← List.drop_drop, List.drop_left, List.drop_replicate]

theorem flushLoop_written (u : Underlying) (data : Bytes) (sink : Sink) :
    (flushLoop u data sink).written = sink.written ++ data := by
  induction data, sink using flushLoop.induct u with
  | case1 data sink empty =>
    rw [flushLoop, if_pos empty, List.length_eq_zero_iff.mp empty, List.append_nil]
  | case2 data sink more size toWrite filled written ih =>
    have copied : filled.written =
        sink.written ++ data.take toWrite ++ List.replicate (size - toWrite) 0 := by
      have length : (data.take toWrite).length = toWrite := by
        rw [List.length_take]
        omega
      have copied := @memcpy_next u sink (data.take toWrite) size rfl
      rwa [length] at copied
    have wrote : written = sink.written ++ data.take toWrite := by
      simp only [written]
      split
      · have kept : (sink.written ++ data.take toWrite ++
            List.replicate (size - toWrite) (0 : UInt8)).length - (size - toWrite) =
            (sink.written ++ data.take toWrite).length := by
          rw [List.length_append, List.length_replicate, Nat.add_sub_cancel]
        rw [Sink.backUp, copied, kept, List.take_left]
      · have full : size - toWrite = 0 := by omega
        rw [copied, full, List.replicate_zero, List.append_nil]
    rw [flushLoop, if_neg more]
    exact ih.trans (by rw [wrote, List.append_assoc, List.take_append_drop])

theorem put_front (b : Buffer) {data : Bytes} : (b.put 0 data).bytes.take data.length = data := by
  simp only [Buffer.put, List.take_zero, List.nil_append]
  exact List.take_left

structure Took {S : Type} (s t : ZstdOutputStream S) (input output : Bytes) : Prop where
  passed : t.cstream.passed = s.cstream.passed ++ input
  produced : t.cstream.produced = s.cstream.produced ++ output
  written : t.sink.written = s.sink.written ++ output
  inputBuffer : t.inputBuffer = s.inputBuffer
  byteCount : t.byteCount = s.byteCount

theorem Took.trans {S : Type} {s t m : ZstdOutputStream S} {input rest output more : Bytes}
    (first : Took s t input output) (second : Took t m rest more) :
    Took s m (input ++ rest) (output ++ more) :=
  ⟨by rw [second.passed, first.passed, List.append_assoc],
    by rw [second.produced, first.produced, List.append_assoc],
    by rw [second.written, first.written, List.append_assoc],
    second.inputBuffer.trans first.inputBuffer, second.byteCount.trans first.byteCount⟩

theorem took_kept {S : Type} (s : ZstdOutputStream S) (u : Underlying) (input : Bytes)
    (r : CompressResult S) : (s.took u input r).inputBuffer = s.inputBuffer ∧
      (s.took u input r).byteCount = s.byteCount := by
  unfold ZstdOutputStream.took
  split
  · exact ⟨rfl, rfl⟩
  · exact ⟨rfl, rfl⟩

theorem took_written {S : Type} (s : ZstdOutputStream S) (u : Underlying) (input : Bytes)
    (r : CompressResult S) : (s.took u input r).sink.written = s.sink.written ++ r.produced := by
  unfold ZstdOutputStream.took
  split
  · rename_i some_produced
    simp only [flushOutput, flushLoop_written]
    rw [if_neg (by omega), put_front]
  · rename_i none_produced
    rw [List.length_eq_zero_iff.mp (Nat.eq_zero_of_not_pos none_produced), List.append_nil]

theorem took_spec {S : Type} (s : ZstdOutputStream S) (u : Underlying) (input : Bytes)
    (r : CompressResult S) : Took s (s.took u input r) (input.take r.consumed) r.produced where
  passed := by
    rw [took_cstream]
    rfl
  produced := by
    rw [took_cstream]
    rfl
  written := took_written s u input r
  inputBuffer := (took_kept s u input r).1
  byteCount := (took_kept s u input r).2

theorem compressLoop_error {S : Type} {z : Zstd S} (u : Underlying) {directive : EndDirective}
    {input : Bytes} {s : ZstdOutputStream S}
    (call : z.compressStream2 s.cstream.state directive s.outputBuffer.size input = none) :
    compressLoop z u directive input s = (false, s) := by
  rw [compressLoop]
  split
  · rfl
  · rename_i r other
    rw [call] at other
    cases other

theorem compressLoop_call {S : Type} {z : Zstd S} (u : Underlying) {directive : EndDirective}
    {input : Bytes} {s : ZstdOutputStream S} {r : CompressResult S}
    (call : z.compressStream2 s.cstream.state directive s.outputBuffer.size input = some r) :
    compressLoop z u directive input s =
      if r.unfinished directive input then
        compressLoop z u directive (input.drop r.consumed) (s.took u input r)
      else (true, s.took u input r) := by
  rw [compressLoop]
  split
  · rename_i other
    rw [call] at other
    cases other
  · rename_i r' other
    rw [call] at other
    cases other
    rfl

theorem consumed_all {S : Type} {z : Zstd S} {state : S} {directive : EndDirective} {room : Nat}
    {input : Bytes} {r : CompressResult S}
    (call : z.compressStream2 state directive room input = some r)
    (finished : ¬ r.unfinished directive input = true) : r.consumed = input.length := by
  cases directive with
  | «continue» =>
    simp only [CompressResult.unfinished, decide_eq_true_eq, Nat.not_lt] at finished
    exact Nat.le_antisymm (z.consumed_le call) finished
  | «end» =>
    simp only [CompressResult.unfinished, ne_eq, decide_eq_true_eq, Classical.not_not] at finished
    exact z.ended call finished

/-- A loop without an error passes all of the input, once, and writes what was produced. -/
theorem compressLoop_spec {S : Type} {z : Zstd S} {u : Underlying} {directive : EndDirective}
    {input : Bytes} {s t : ZstdOutputStream S}
    (done : compressLoop z u directive input s = (true, t)) :
    ∃ output, Took s t input output := by
  induction input, s using compressLoop.induct z u directive with
  | case1 input s error =>
    rw [compressLoop_error u error] at done
    cases done
  | case2 input s r call more ih =>
    rw [compressLoop_call u call, if_pos more] at done
    obtain ⟨output, rest⟩ := ih done
    have all := (took_spec s u input r).trans rest
    rw [List.take_append_drop] at all
    exact ⟨_, all⟩
  | case3 input s r call last =>
    rw [compressLoop_call u call, if_neg last] at done
    obtain ⟨-, rfl⟩ := Prod.mk.inj done
    have all := took_spec s u input r
    rw [consumed_all call last, List.take_length] at all
    exact ⟨_, all⟩

theorem compressAndFlush_spec {S : Type} {z : Zstd S} {u : Underlying} {directive : EndDirective}
    {s t : ZstdOutputStream S} (done : compressAndFlush z u directive s = (true, t)) :
    t.inputAvailable = 0 ∧
      ∃ output, Took s t (s.inputBuffer.bytes.take s.inputAvailable) output := by
  unfold compressAndFlush at done
  split at done
  · rename_i m loop
    obtain ⟨-, rfl⟩ := Prod.mk.inj done
    obtain ⟨output, took⟩ := compressLoop_spec loop
    exact ⟨rfl, output, took.passed, took.produced, took.written, took.inputBuffer, took.byteCount⟩
  · cases done

theorem next_spec {S : Type} {z : Zstd S} {u : Underlying} {s t : ZstdOutputStream S}
    (done : next z u s = (true, t)) :
    t.inputAvailable = s.inputBuffer.size ∧ t.inputBuffer = s.inputBuffer ∧
      t.byteCount = s.byteCount + s.inputBuffer.size ∧
      t.cstream.passed = s.cstream.passed ++ s.inputBuffer.bytes.take s.inputAvailable ∧
      (s.sink.written = s.cstream.produced → t.sink.written = t.cstream.produced) := by
  unfold next at done
  split at done
  · split at done
    · cases done
    · rename_i m compressed
      obtain ⟨-, rfl⟩ := Prod.mk.inj done
      obtain ⟨-, output, took⟩ := compressAndFlush_spec compressed
      refine ⟨by rw [← took.inputBuffer]; rfl, took.inputBuffer, ?_, took.passed, fun reached => ?_⟩
      · simp only [ZstdOutputStream.provide, took.byteCount, took.inputBuffer]
      · simp only [ZstdOutputStream.provide, took.written, took.produced, reached]
  · rename_i nothing
    obtain ⟨-, rfl⟩ := Prod.mk.inj done
    refine ⟨rfl, rfl, rfl, ?_, id⟩
    rw [Nat.eq_zero_of_not_pos nothing, List.take_zero, List.append_nil]
    rfl

/-! ### Whole runs -/

/-- Until the compressor fails, what is available to the stream is what the caller keeps of the
    last buffer, and the count of bytes is that of all it keeps. -/
structure Inv {S : Type} (s : System S) : Prop where
  safe : Safe s
  within : s.last ≤ s.stream.inputBuffer.size
  available : s.failed = false → s.stream.inputAvailable = s.last
  count : s.failed = false → s.stream.byteCount = (s.kept.length + s.last : Nat)

theorem put_size (b : Buffer) {start : Nat} {data : Bytes} (fits : start + data.length ≤ b.size) :
    (b.put start data).size = b.size := by
  simp only [Buffer.size, Buffer.put, List.length_append, List.length_take, List.length_drop]
    at fits ⊢
  omega

theorem lastKept_length {S : Type} {s : System S} (inv : Inv s) : s.lastKept.length = s.last := by
  rw [System.lastKept, List.length_take]
  exact Nat.min_eq_left inv.within

theorem inv_next {S : Type} {z : Zstd S} {u : Underlying} {s t : System S} (inv : Inv s)
    (taken : step z u s .next = some t) : Inv t := by
  simp only [step] at taken
  split at taken
  · cases taken
  rename_i allowed
  have running : s.failed = false := by
    cases failed : s.failed with
    | false => rfl
    | true => exact absurd (Or.inr failed) allowed
  split at taken
  · rename_i stream returned
    obtain rfl := Option.some.inj taken
    obtain ⟨available, buffer, count, passed, reached⟩ := next_spec returned
    refine ⟨⟨fun _ => ?_, fun _ => reached (inv.safe.reached running)⟩, Nat.le_refl _, fun _ => ?_,
      fun _ => ?_⟩
    · rw [passed, inv.safe.passed running, inv.available running]
      rfl
    · rw [available, buffer]
    · rw [count, inv.count running, List.length_append, lastKept_length inv, buffer]
      simp only
      omega
  · obtain rfl := Option.some.inj taken
    exact ⟨⟨nofun, nofun⟩, Nat.zero_le _, nofun, nofun⟩

theorem inv_put {S : Type} {z : Zstd S} {u : Underlying} {s t : System S} {start : Nat}
    {data : Bytes} (inv : Inv s) (taken : step z u s (.put start data) = some t) : Inv t := by
  simp only [step] at taken
  split at taken
  · rename_i allowed
    obtain rfl := Option.some.inj taken
    refine ⟨⟨inv.safe.passed, inv.safe.reached⟩, ?_, inv.available, inv.count⟩
    simp only
    rw [put_size _ (Nat.le_trans allowed.2 inv.within)]
    exact inv.within
  · cases taken

theorem inv_backUp {S : Type} {z : Zstd S} {u : Underlying} {s t : System S} {count : Nat}
    (inv : Inv s) (taken : step z u s (.backUp count) = some t) : Inv t := by
  simp only [step] at taken
  split at taken
  · rename_i allowed
    obtain rfl := Option.some.inj taken
    have kept : (backUp s.stream count).cstream = s.stream.cstream ∧
        (backUp s.stream count).sink = s.stream.sink ∧
        (backUp s.stream count).inputBuffer = s.stream.inputBuffer := by
      unfold backUp
      split
      · exact ⟨rfl, rfl, rfl⟩
      · exact ⟨rfl, rfl, rfl⟩
    refine ⟨⟨fun running => ?_, fun running => ?_⟩, ?_, fun running => ?_, fun running => ?_⟩
    · rw [kept.1]
      exact inv.safe.passed running
    · rw [kept.1, kept.2.1]
      exact inv.safe.reached running
    · simp only [kept.2.2]
      exact Nat.le_trans (Nat.sub_le _ _) inv.within
    · have available := inv.available running
      simp only [backUp, available]
      rw [if_neg (by omega), Int.toNat_natCast]
    · have available := inv.available running
      have total := inv.count running
      simp only [backUp, available]
      rw [if_neg (by omega), total]
      simp only
      omega
  · cases taken

theorem inv_close {S : Type} {z : Zstd S} {u : Underlying} {s t : System S} (inv : Inv s)
    (taken : step z u s .close = some t) : Inv t := by
  simp only [step] at taken
  split at taken
  · cases taken
  · obtain rfl := Option.some.inj taken
    have spec : (s.failed || !(close z u s.stream).1) = false → s.failed = false ∧
        (close z u s.stream).2.inputAvailable = 0 ∧ ∃ output, Took s.stream (close z u s.stream).2
          (s.stream.inputBuffer.bytes.take s.stream.inputAvailable) output := by
      intro running
      obtain ⟨running, done⟩ := Bool.or_eq_false_iff.mp running
      have finished : (close z u s.stream).1 = true := by simpa using done
      have returned : compressAndFlush z u .end s.stream = (true, (close z u s.stream).2) :=
        Prod.ext finished rfl
      exact ⟨running, compressAndFlush_spec returned⟩
    refine ⟨⟨fun running => ?_, fun running => ?_⟩, Nat.zero_le _, fun running => ?_,
      fun running => ?_⟩
    · obtain ⟨before, -, output, took⟩ := spec running
      rw [took.passed, inv.safe.passed before, inv.available before]
      rfl
    · obtain ⟨before, -, output, took⟩ := spec running
      rw [took.written, took.produced, inv.safe.reached before]
    · exact (spec running).2.1
    · obtain ⟨before, -, output, took⟩ := spec running
      rw [took.byteCount, inv.count before, List.length_append, lastKept_length inv]
      rfl

theorem step_keeps {S : Type} {z : Zstd S} {u : Underlying} (s : System S) (l : Label)
    (t : System S) (inv : Inv s) (taken : step z u s l = some t) : Inv t := by
  cases l with
  | next => exact inv_next inv taken
  | put start data => exact inv_put inv taken
  | backUp count => exact inv_backUp inv taken
  | close => exact inv_close inv taken

theorem inv_start {S : Type} (state : S) (inputBuffer outputBuffer : Buffer) :
    Inv (.start state inputBuffer outputBuffer) :=
  ⟨⟨fun _ => rfl, fun _ => rfl⟩, Nat.zero_le _, fun _ => rfl, fun _ => rfl⟩

/-- For every compressor that keeps to its documentation, all sizes of buffers and every use that
    the contract allows. -/
theorem kept_bytes_passed {S : Type} (z : Zstd S) (u : Underlying) (state : S)
    (inputBuffer outputBuffer : Buffer) (ls : List Label) :
    Runs.Always (step z u) Safe (.start state inputBuffer outputBuffer) ls :=
  Runs.always_mono (fun _ inv => inv.safe)
    (Runs.always_of_keep Inv step_keeps (inv_start state inputBuffer outputBuffer) ls)

def stored : Zstd Unit where
  compressStream2 _ _ room input :=
    some ⟨(), min room input.length, input.take room, input.length - room⟩
  consumed_le call := by
    cases call
    exact Nat.min_le_right _ _
  produced_le call := by
    cases call
    exact List.length_take_le _ _
  ended call none_left := by
    cases call
    simp only at none_left ⊢
    omega
  work _ _ input := input.length
  progress := by
    intro _ directive room input _ positive call more
    cases call
    have left : room < input.length := by
      cases directive with
      | «continue» =>
        simp only [CompressResult.unfinished, decide_eq_true_eq] at more
        omega
      | «end» =>
        simp only [CompressResult.unfinished, ne_eq, decide_eq_true_eq] at more
        omega
    simp only [List.length_drop]
    omega

/-- Two bytes stay of the first buffer and one of the second. -/
theorem three_bytes_passed :
    Runs.Always (step stored ⟨fun _ => 1, fun _ => ⟨0, Nat.one_pos⟩⟩) Safe
      (.start () ⟨[0, 0, 0], Nat.zero_lt_succ _⟩ ⟨[0, 0], Nat.zero_lt_succ _⟩)
      [.next, .put 0 [7, 8, 9], .backUp 1, .next, .put 0 [5], .backUp 2, .close] :=
  kept_bytes_passed stored _ () _ _ _

end SantaZstdOutputStream
