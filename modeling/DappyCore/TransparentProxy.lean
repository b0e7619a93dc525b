import DappyCore.Recv
import DappyCore.Lib.Trace
import DappyCore.Lib.Effect

/-!
The 1:1 proxy without a multiplexer: two tasks, one for each direction, that read a message and
write it again to the other side. What a task writes depends on the bytes it is given alone, not
on how they are cut, nor on what the other task does.
-/

namespace DappyCore.TransparentProxy

open Lib Lib.Trace Protocol Transport Recv

/-- Where a task reads; it writes to the other side. -/
inductive Side | client | backend
  deriving DecidableEq

/-- Whether a task goes on, or how it ended. A write that fails is an `io` error too, but some of
the frame may have been written. -/
inductive Status
  | running
  | finished
  | failed (error : ProtocolError)
  | writeFailed
  | panicked
  deriving DecidableEq

/-- A task of `forward_shared`: what has arrived and is not taken, whether more can come, the
call of `recv` that waits, what has been written, and whether the task goes on. -/
structure Forward where
  buffered : List UInt8
  eof : Bool
  recv : ReadFuture
  written : List UInt8
  status : Status

/-- The bytes of a stream, its end, and a turn of the task, whose write may fail after so many
bytes. -/
inductive Input
  | arrive (chunk : List UInt8)
  | close
  | poll (write : Except ℕ Unit)

def Forward.start : Forward := ⟨[], false, .start, [], .running⟩

variable (serde : Serde)

/-- A message has been read: it is written before the next one is read. -/
def Forward.send (f : Forward) (message : Message) (rest : List UInt8) (write : Except ℕ Unit) :
    Forward :=
  match writeMessage serde message with
  | .error e => { f with buffered := rest, recv := .start, status := .failed e }
  | .ok bytes =>
    match write with
    | .ok () => { f with buffered := rest, recv := .start, written := f.written ++ bytes }
    | .error n =>
      { f with
        buffered := rest
        recv := .start
        written := f.written ++ bytes.take n
        status := .writeFailed }

def Forward.step (f : Forward) : Input → Forward
  | .arrive chunk => if f.eof then f else { f with buffered := f.buffered ++ chunk }
  | .close => { f with eof := true }
  | .poll write =>
    if f.status = .running then
      match poll serde f.eof f.recv f.buffered with
      | .ready (.ok (some message)) rest => f.send serde message rest write
      | .ready (.ok none) rest => { f with buffered := rest, recv := .start, status := .finished }
      | .ready (.error e) rest => { f with buffered := rest, recv := .start, status := .failed e }
      | .pending future => { f with buffered := [], recv := future }
      | .panicked => { f with status := .panicked }
    else f

/-- Transparent bidirectional forward between client and backend (1:1, no mux). -/
abbrev Proxy := Side → Forward

def start : Proxy := fun _ => .start

def step (proxy : Proxy) (i : Side × Input) : Proxy :=
  Function.update proxy i.1 ((proxy i.1).step serde i.2)

/-- What `run_transparent_proxy` returns: it waits for the one task and then for the other. -/
def outcome (proxy : Proxy) : Status :=
  match (proxy .client).status with
  | .finished => (proxy .backend).status
  | status => status

/-! ### What is to be written -/

/-- The messages of a stream that is all there, written again, and how the task ends; at most
so many of them. -/
def relay : ℕ → List UInt8 → List UInt8 × Status
  | 0, _ => ([], .running)
  | n + 1, input =>
    match readMessage serde input with
    | .ready (.ok (some message)) rest =>
      match writeMessage serde message with
      | .error e => ([], .failed e)
      | .ok bytes => (bytes ++ (relay n rest).1, (relay n rest).2)
    | .ready (.ok none) _ => ([], .finished)
    | .ready (.error e) _ => ([], .failed e)
    | .pending _ => ([], .running)
    | .panicked => ([], .panicked)

/-- All the messages: there are no more than bytes. -/
def relayed (input : List UInt8) : List UInt8 × Status := relay serde (input.length + 1) input

variable {serde}

lemma headersIn_le_length (input : List UInt8) : headersIn input ≤ input.length := by
  induction input with
  | nil => exact le_rfl
  | cons b input ih =>
    have hone := Bool.toNat_le (startsHeader (b :: input))
    rw [headersIn_cons, List.length_cons]
    omega

/-- A message takes a header line away. -/
lemma headersIn_lt {input rest : List UInt8} {message : Message}
    (h : readMessage serde input = .ready (.ok (some message)) rest) :
    headersIn rest < headersIn input := by
  have hw : Within (readMessage serde input) [] (prospects .start (input ++ [])) :=
    within_poll unbroken_start input
  rw [h, List.append_nil, prospects_start] at hw
  have hone : (messages [(.ok (some message) : ReadResult)]).length = 1 := rfl
  simp only [Within, List.append_nil] at hw
  omega

/-- So many steps do as any number above the messages that are there. -/
lemma relay_congr {n m : ℕ} {input : List UInt8} (hn : headersIn input < n)
    (hm : headersIn input < m) : relay serde n input = relay serde m input := by
  induction n generalizing m input with
  | zero => omega
  | succ n ih =>
    cases m with
    | zero => omega
    | succ m =>
      simp only [relay]
      cases h : readMessage serde input with
      | pending future => rfl
      | panicked => rfl
      | ready result rest =>
        match result with
        | .error e => rfl
        | .ok none => rfl
        | .ok (some message) =>
          have hlt := headersIn_lt h
          have hrest : relay serde n rest = relay serde m rest := ih (by omega) (by omega)
          simp only [hrest]

lemma relayed_message {input rest bytes : List UInt8} {message : Message}
    (h : readMessage serde input = .ready (.ok (some message)) rest)
    (hb : writeMessage serde message = .ok bytes) :
    relayed serde input = (bytes ++ (relayed serde rest).1, (relayed serde rest).2) := by
  have hlt := headersIn_lt h
  have hrest : relay serde input.length rest = relayed serde rest := by
    have hle := headersIn_le_length input
    have hle' := headersIn_le_length rest
    exact relay_congr (by omega) (by omega)
  simp only [relayed, relay, h, hb] at hrest ⊢
  rw [hrest]

/-! ### Calls on a stream that has ended -/

/-- At the end of the stream no call waits. -/
lemma poll_eof (future future' : ReadFuture) (input : List UInt8) :
    poll serde true future input ≠ .pending future' := by
  have hbody : ∀ length filled input,
      readBody serde true length filled input ≠ .pending future' := by
    intro length filled input h
    simp only [readBody, if_true] at h
    split_ifs at h
  have hstart : ∀ contentLength input,
      startBody serde true contentLength input ≠ .pending future' := by
    intro contentLength input h
    unfold startBody at h
    split at h
    · cases h
    · split_ifs at h
      exact hbody _ _ _ h
  have hend : ∀ sawHeader, endOfStream sawHeader ≠ .pending future' := by
    intro sawHeader h
    cases sawHeader <;> simp [endOfStream] at h
  cases future with
  | body length filled => exact hbody length filled input
  | header contentLength sawHeader lineBuf =>
    rw [poll]
    induction input generalizing contentLength sawHeader lineBuf with
    | nil =>
      -- a header that breaks off
      intro h
      simp only [readHeader, if_true] at h
      split_ifs at h
      · exact hend _ h
      · split at h
        · exact hstart _ _ h
        · exact hend _ h
        · cases h
    | cons b input ih =>
      intro h
      unfold readHeader at h
      split_ifs at h
      · split at h
        · exact hstart _ _ h
        · exact ih _ _ _ h
        · cases h
      · exact ih _ _ _ h

/-! ### One task -/

/-- More bytes can come to the task, as long as its stream has not ended. -/
def More (f : Forward) (later : List UInt8) : Prop := f.eof = true → later = []

/-- What the task has written is the beginning of what is to be written of the bytes given to it
and of any that can come. -/
def Follows (serde : Serde) (f : Forward) (given : List UInt8) : Prop :=
  match f.status with
  | .running => ∃ taken, poll serde false .start taken = .pending f.recv ∧
      ∀ later, More f later → relayed serde (given ++ later) =
        (f.written ++ (relayed serde (taken ++ (f.buffered ++ later))).1,
          (relayed serde (taken ++ (f.buffered ++ later))).2)
  | .writeFailed => ∀ later, More f later → f.written <+: (relayed serde (given ++ later)).1
  | status => ∀ later, More f later → relayed serde (given ++ later) = (f.written, status)

/-- The bytes that a task takes: those before the end of the stream. -/
def arrived : List Input → List UInt8
  | [] => []
  | .arrive chunk :: inputs => chunk ++ arrived inputs
  | .close :: _ => []
  | .poll _ :: inputs => arrived inputs

/-- The bytes of one input. -/
def Input.chunk (f : Forward) : Input → List UInt8
  | .arrive chunk => if f.eof then [] else chunk
  | .close => []
  | .poll _ => []

variable {f : Forward} {given : List UInt8}

lemma follows_start : Follows serde .start [] :=
  ⟨[], rfl, fun later _ => by simp [Forward.start]⟩

/-- A call that comes to a result does so on the stream as it is given. -/
lemma readMessage_of_ready {taken later rest : List UInt8} {result : ReadResult}
    (ht : poll serde false .start taken = .pending f.recv) (hm : More f later)
    (h : poll serde f.eof f.recv f.buffered = .ready result rest) :
    readMessage serde (taken ++ (f.buffered ++ later)) = .ready result (rest ++ later) := by
  rw [readMessage, poll_append_pending ht]
  cases he : f.eof with
  | true =>
    rw [hm he, List.append_nil, List.append_nil, ← h, he]
  | false =>
    rw [he] at h
    rw [poll_append, h]
    rfl

lemma readMessage_of_panicked {taken later : List UInt8}
    (ht : poll serde false .start taken = .pending f.recv) (hm : More f later)
    (h : poll serde f.eof f.recv f.buffered = .panicked) :
    readMessage serde (taken ++ (f.buffered ++ later)) = .panicked := by
  rw [readMessage, poll_append_pending ht]
  cases he : f.eof with
  | true =>
    rw [hm he, List.append_nil, ← h, he]
  | false =>
    rw [he] at h
    rw [poll_append, h]
    rfl

lemma relayed_of_ended {input rest : List UInt8}
    (h : readMessage serde input = .ready (.ok none) rest) :
    relayed serde input = ([], .finished) := by
  simp [relayed, relay, h]

lemma relayed_of_error {input rest : List UInt8} {e : ProtocolError}
    (h : readMessage serde input = .ready (.error e) rest) :
    relayed serde input = ([], .failed e) := by
  simp [relayed, relay, h]

lemma relayed_of_panicked {input : List UInt8} (h : readMessage serde input = .panicked) :
    relayed serde input = ([], .panicked) := by
  simp [relayed, relay, h]

/-- **A message** is written as it is to be. -/
lemma Follows.send {taken rest : List UInt8} {message : Message} (hrun : f.status = .running)
    (ht : poll serde false .start taken = .pending f.recv)
    (hf : ∀ later, More f later → relayed serde (given ++ later) =
      (f.written ++ (relayed serde (taken ++ (f.buffered ++ later))).1,
        (relayed serde (taken ++ (f.buffered ++ later))).2))
    (h : poll serde f.eof f.recv f.buffered = .ready (.ok (some message)) rest)
    (write : Except ℕ Unit) : Follows serde (f.send serde message rest write) given := by
  have hread : ∀ later, More f later → readMessage serde (taken ++ (f.buffered ++ later)) =
      .ready (.ok (some message)) (rest ++ later) :=
    fun later hm => readMessage_of_ready ht hm h
  cases hb : writeMessage serde message with
  | error e =>
    simp only [Forward.send, hb, Follows]
    intro later hm
    rw [hf later hm]
    simp [relayed, relay, hread later hm, hb]
  | ok bytes =>
    have hmore : ∀ later, More f later → relayed serde (given ++ later) =
        (f.written ++ (bytes ++ (relayed serde (rest ++ later)).1),
          (relayed serde (rest ++ later)).2) := by
      intro later hm
      rw [hf later hm, relayed_message (hread later hm) hb]
    cases write with
    | ok u =>
      simp only [Forward.send, hb, Follows, hrun]
      refine ⟨[], rfl, fun later hm => ?_⟩
      rw [hmore later hm, List.nil_append, List.append_assoc]
    | error n =>
      simp only [Forward.send, hb, Follows]
      intro later hm
      rw [hmore later hm]
      refine (List.prefix_append_right_inj _).mpr ?_
      exact (List.take_prefix n bytes).trans (List.prefix_append ..)

lemma send_eof (f : Forward) (message : Message) (rest : List UInt8) (write : Except ℕ Unit) :
    (f.send serde message rest write).eof = f.eof := by
  unfold Forward.send
  split
  · rfl
  · split <;> rfl

lemma eof_step (f : Forward) (i : Input) : (f.step serde i).eof = true ↔
    f.eof = true ∨ i = .close := by
  cases i with
  | arrive chunk => simp only [Forward.step]; split_ifs <;> simp
  | close => simp [Forward.step]
  | poll write =>
    simp only [Forward.step]
    split_ifs
    · split <;> simp [send_eof]
    · simp

/-- A task that has ended stays so. -/
lemma step_of_ended (hstop : f.status ≠ .running) (i : Input) :
    (f.step serde i).status = f.status ∧ (f.step serde i).written = f.written := by
  cases i with
  | arrive chunk => simp only [Forward.step]; split_ifs <;> simp
  | close => simp [Forward.step]
  | poll write => simp [Forward.step, hstop]

/-- What can still come once an input is taken could come before. -/
lemma more_of_step {i : Input} {later : List UInt8} (hm : More (f.step serde i) later) :
    More f (i.chunk f ++ later) := by
  intro he
  rw [hm ((eof_step f i).mpr (.inl he)), List.append_nil]
  cases i <;> simp [Input.chunk, he]

/-- A turn of a task that runs. -/
lemma Follows.poll (h : Follows serde f given) (hrun : f.status = .running)
    (write : Except ℕ Unit) : Follows serde (f.step serde (.poll write)) given := by
  have hrun' := h
  simp only [Follows, hrun] at hrun'
  obtain ⟨taken, ht, hf⟩ := hrun'
  simp only [Forward.step, hrun, if_true]
  cases hp : Transport.poll serde f.eof f.recv f.buffered with
  | pending future =>
    -- a call that waits is not at the end of the stream
    have he : f.eof = false := by
      by_contra hne
      rw [Bool.not_eq_false] at hne
      rw [hne] at hp
      exact poll_eof _ _ _ hp
    rw [he] at hp
    simp only [Follows]
    refine ⟨taken ++ f.buffered, ?_, fun later hm => ?_⟩
    · rw [poll_append_pending ht, hp]
    · rw [hf later hm, List.nil_append, List.append_assoc]
  | panicked =>
    simp only [Follows]
    intro later hm
    rw [hf later hm, relayed_of_panicked (readMessage_of_panicked ht hm hp), List.append_nil]
  | ready result rest =>
    match result with
    | .error e =>
      simp only [Follows]
      intro later hm
      rw [hf later hm, relayed_of_error (readMessage_of_ready ht hm hp), List.append_nil]
    | .ok none =>
      simp only [Follows]
      intro later hm
      rw [hf later hm, relayed_of_ended (readMessage_of_ready ht hm hp), List.append_nil]
    | .ok (some message) => exact Follows.send hrun ht hf hp write

/-- More of the stream, while the task runs. -/
lemma Follows.take {i : Input} (h : Follows serde f given) (hrun : f.status = .running)
    (hi : ∀ write, i ≠ .poll write) : Follows serde (f.step serde i) (given ++ i.chunk f) := by
  have hrun' := h
  simp only [Follows, hrun] at hrun'
  obtain ⟨taken, ht, hf⟩ := hrun'
  cases i with
  | poll write => exact absurd rfl (hi write)
  | close =>
    simp only [Forward.step, Follows, hrun, Input.chunk, List.append_nil]
    exact ⟨taken, ht, fun later hm => hf later fun _ => hm rfl⟩
  | arrive chunk =>
    cases he : f.eof with
    | true =>
      have hstep : f.step serde (.arrive chunk) = f := by simp [Forward.step, he]
      rw [hstep]
      simpa [Input.chunk, he] using h
    | false =>
      simp only [Forward.step, he, Bool.false_eq_true, if_false, Follows, hrun, Input.chunk]
      refine ⟨taken, ht, fun later hm => ?_⟩
      have hmore : More f (chunk ++ later) := fun h' => by rw [he] at h'; cases h'
      rw [List.append_assoc, List.append_assoc]
      exact hf (chunk ++ later) hmore

/-- **One step** of a task. -/
theorem Follows.step (h : Follows serde f given) (i : Input) :
    Follows serde (f.step serde i) (given ++ i.chunk f) := by
  by_cases hrun : f.status = .running
  · cases i with
    | arrive chunk => exact h.take hrun (by simp)
    | close => exact h.take hrun (by simp)
    | poll write =>
      rw [Input.chunk, List.append_nil]
      exact h.poll hrun write
  · obtain ⟨hstatus, hwritten⟩ := @step_of_ended serde f hrun i
    have hlater : ∀ later, More (f.step serde i) later → More f (i.chunk f ++ later) :=
      fun later hm => more_of_step hm
    unfold Follows at h ⊢
    rw [hstatus, hwritten]
    cases hs : f.status with
    | running => exact absurd hs hrun
    | finished | failed e | writeFailed | panicked =>
      simp only [hs] at h ⊢
      intro later hm
      rw [List.append_assoc]
      exact h _ (hlater later hm)

/-- A task that gets no more bytes goes on as it was given them. -/
lemma foldl_follows_ended (inputs : List Input) (h : Follows serde f given) (he : f.eof = true) :
    Follows serde (inputs.foldl (Forward.step serde) f) given := by
  induction inputs generalizing f with
  | nil => exact h
  | cons i inputs ih =>
    have hstep := h.step i
    have hchunk : i.chunk f = [] := by cases i <;> simp [Input.chunk, he]
    rw [hchunk, List.append_nil] at hstep
    exact ih hstep ((eof_step f i).mpr (.inl he))

/-- What a task takes of its inputs, from where it is. -/
lemma foldl_follows (inputs : List Input) (h : Follows serde f given) (he : f.eof = false) :
    Follows serde (inputs.foldl (Forward.step serde) f) (given ++ arrived inputs) := by
  induction inputs generalizing f given with
  | nil => simpa [arrived] using h
  | cons i inputs ih =>
    have hstep := h.step i
    cases i with
    | arrive chunk =>
      have he' : (f.step serde (.arrive chunk)).eof = false := by
        rw [Bool.eq_false_iff, ne_eq, eof_step, he]
        simp
      have hrest := ih hstep he'
      simpa [arrived, Input.chunk, he] using hrest
    | close =>
      have hrest := foldl_follows_ended inputs hstep ((eof_step f .close).mpr (.inr rfl))
      simpa [arrived, Input.chunk] using hrest
    | poll write =>
      have he' : (f.step serde (.poll write)).eof = false := by
        rw [Bool.eq_false_iff, ne_eq, eof_step, he]
        simp
      have hrest := ih hstep he'
      simpa [arrived, Input.chunk] using hrest

/-! ### At the end of the stream -/

/-- The call that waits has taken no more than there was, and no more messages are to come than
header lines were given. -/
def Bounded (f : Forward) (given : List UInt8) : Prop :=
  Unbroken f.recv ∧ ∀ later, prospects f.recv (f.buffered ++ later) ≤ headersIn (given ++ later)

lemma bounded_start : Bounded .start [] := by
  refine ⟨unbroken_start, fun later => ?_⟩
  rw [Forward.start, prospects_start]

lemma send_frame (f : Forward) (message : Message) (rest : List UInt8) (write : Except ℕ Unit) :
    (f.send serde message rest write).recv = .start ∧
      (f.send serde message rest write).buffered = rest := by
  unfold Forward.send
  split
  · exact ⟨rfl, rfl⟩
  · split <;> exact ⟨rfl, rfl⟩

/-- A turn of a task takes a message, waits or ends. -/
lemma poll_bound (hu : Unbroken f.recv) (write : Except ℕ Unit) (later : List UInt8) :
    let g := f.step serde (.poll write)
    Unbroken g.recv ∧ prospects g.recv (g.buffered ++ later) ≤
        prospects f.recv (f.buffered ++ later) ∧
      (f.eof = true → g.status = .running → prospects g.recv (g.buffered ++ later) <
        prospects f.recv (f.buffered ++ later)) := by
  intro g
  by_cases hrun : f.status = .running
  · have hw : Within (poll serde f.eof f.recv f.buffered) later
        (prospects f.recv (f.buffered ++ later)) := within_poll hu f.buffered
    have hg : g = f.step serde (.poll write) := rfl
    simp only [Forward.step, hrun, if_true] at hg
    cases hp : poll serde f.eof f.recv f.buffered with
    | pending future =>
      rw [hp] at hg hw
      rw [hg]
      -- at the end of the stream no call waits
      refine ⟨hw.1, hw.2, fun he => ?_⟩
      rw [he] at hp
      exact absurd hp (poll_eof _ _ _)
    | panicked =>
      rw [hp] at hg
      rw [hg]
      exact ⟨hu, le_rfl, fun _ h => by cases h⟩
    | ready result rest =>
      rw [hp] at hg hw
      simp only [Within] at hw
      rcases result with e | (- | message)
      · rw [hg]
        refine ⟨unbroken_start, ?_, fun _ h => by cases h⟩
        simp only [prospects_start]
        omega
      · rw [hg]
        refine ⟨unbroken_start, ?_, fun _ h => by cases h⟩
        simp only [prospects_start]
        omega
      · -- a message is taken, and passed on or not
        have hone : (messages [(.ok (some message) : ReadResult)]).length = 1 := rfl
        obtain ⟨hrecv, hbuffered⟩ := @send_frame serde f message rest write
        rw [hg]
        simp only [hrecv, hbuffered, prospects_start]
        refine ⟨unbroken_start, ?_, fun _ _ => ?_⟩ <;> omega
  · -- a task that has stopped does nothing
    have hg : g = f := by simp [g, Forward.step, hrun]
    rw [hg]
    exact ⟨hu, le_rfl, fun _ h => absurd h hrun⟩

lemma Bounded.step (h : Bounded f given) (i : Input) :
    Bounded (f.step serde i) (given ++ i.chunk f) := by
  cases i with
  | arrive chunk =>
    cases he : f.eof with
    | true =>
      have hstep : f.step serde (.arrive chunk) = f := by simp [Forward.step, he]
      rw [hstep]
      simpa [Input.chunk, he] using h
    | false =>
      have hstep : f.step serde (.arrive chunk) = { f with buffered := f.buffered ++ chunk } := by
        simp [Forward.step, he]
      rw [hstep]
      refine ⟨h.1, fun later => ?_⟩
      have hle := h.2 (chunk ++ later)
      simpa [Input.chunk, he, List.append_assoc] using hle
  | close =>
    rw [Input.chunk, List.append_nil]
    exact h
  | poll write =>
    rw [Input.chunk, List.append_nil]
    refine ⟨(poll_bound h.1 write []).1, fun later => ?_⟩
    exact (poll_bound h.1 write later).2.1.trans (h.2 later)

/-- A turn of the task. -/
def Input.isPoll : Input → Bool
  | .poll _ => true
  | _ => false

lemma foldl_of_ended (hstop : f.status ≠ .running) (inputs : List Input) :
    (inputs.foldl (Forward.step serde) f).status ≠ .running := by
  induction inputs generalizing f with
  | nil => exact hstop
  | cons i inputs ih =>
    obtain ⟨hstatus, -⟩ := @step_of_ended serde f hstop i
    exact ih (by rw [hstatus]; exact hstop)

/-- Turns enough bring a task to its end. -/
lemma ended_of_polls (hu : Unbroken f.recv) (he : f.eof = true) (inputs : List Input)
    (hn : prospects f.recv f.buffered < inputs.countP Input.isPoll) :
    (inputs.foldl (Forward.step serde) f).status ≠ .running := by
  induction inputs generalizing f with
  | nil => simp at hn
  | cons i inputs ih =>
    have heof := (@eof_step serde f i).mpr (.inl he)
    cases i with
    | arrive chunk =>
      have hstep : f.step serde (.arrive chunk) = f := by simp [Forward.step, he]
      rw [List.foldl_cons, hstep]
      exact ih hu he (by simpa [Input.isPoll] using hn)
    | close => exact ih hu heof (by simpa [Input.isPoll, Forward.step] using hn)
    | poll write =>
      rw [List.foldl_cons]
      by_cases hrun : (f.step serde (.poll write)).status = .running
      · obtain ⟨hu', -, hlt⟩ := @poll_bound serde f hu write []
        have hlt' := hlt he hrun
        simp only [List.append_nil] at hlt'
        rw [List.countP_cons_of_pos rfl] at hn
        exact ih hu' heof (by omega)
      · exact foldl_of_ended hrun inputs

/-- The bytes given up to the end of the stream bound the turns that are needed. -/
lemma foldl_bounded (inputs : List Input) (h : Bounded f given) (he : f.eof = false)
    (hi : Input.close ∉ inputs) :
    Bounded (inputs.foldl (Forward.step serde) f) (given ++ arrived inputs) := by
  induction inputs generalizing f given with
  | nil => simpa [arrived] using h
  | cons i inputs ih =>
    have hne : i ≠ .close := fun e => hi (e ▸ List.mem_cons_self)
    have he' : (f.step serde i).eof = false := by
      rw [Bool.eq_false_iff, ne_eq, eof_step, he]
      simp [hne]
    have hrest := ih (h.step i) he' fun hm => hi (List.mem_cons_of_mem _ hm)
    cases i with
    | arrive chunk => simpa [arrived, Input.chunk, he] using hrest
    | close => exact absurd rfl hne
    | poll write => simpa [arrived, Input.chunk] using hrest

/-! ### What a task does in all -/

/-- A task that has been given these inputs. -/
def Forward.after (serde : Serde) (inputs : List Input) : Forward :=
  inputs.foldl (Forward.step serde) .start

lemma arrived_of_close {before after : List Input} (hb : Input.close ∉ before) :
    arrived (before ++ .close :: after) = arrived before := by
  induction before with
  | nil => rfl
  | cons i before ih =>
    have hne : i ≠ .close := fun e => hb (e ▸ List.mem_cons_self)
    have hrest := ih fun hm => hb (List.mem_cons_of_mem _ hm)
    cases i with
    | arrive chunk => simp [arrived, hrest]
    | close => exact absurd rfl hne
    | poll write => simpa [arrived] using hrest

lemma eof_foldl (f : Forward) (inputs : List Input)
    (h : (inputs.foldl (Forward.step serde) f).eof = true) :
    f.eof = true ∨ Input.close ∈ inputs := by
  induction inputs generalizing f with
  | nil => exact .inl h
  | cons i inputs ih =>
    rcases ih _ h with he | hm
    · rcases (eof_step f i).mp he with he | rfl
      · exact .inl he
      · exact .inr List.mem_cons_self
    · exact .inr (List.mem_cons_of_mem _ hm)

lemma follows_after (serde : Serde) (inputs : List Input) :
    Follows serde (.after serde inputs) (arrived inputs) :=
  foldl_follows inputs follows_start rfl

/-- What has been written is the beginning of what is to be. -/
lemma written_prefix (inputs : List Input) {later : List UInt8}
    (h : Input.close ∈ inputs → later = []) :
    (Forward.after serde inputs).written <+: (relayed serde (arrived inputs ++ later)).1 := by
  have hfollows := follows_after serde inputs
  have hm : More (.after serde inputs) later := fun he =>
    h ((eof_foldl .start inputs he).resolve_left (by simp [Forward.start]))
  unfold Follows at hfollows
  cases hs : (Forward.after serde inputs).status with
  | running =>
    simp only [hs] at hfollows
    obtain ⟨taken, -, hall⟩ := hfollows
    rw [hall later hm]
    exact List.prefix_append ..
  | writeFailed =>
    simp only [hs] at hfollows
    exact hfollows later hm
  | finished | failed e | panicked =>
    simp only [hs] at hfollows
    have hall := congrArg Prod.fst (hfollows later hm)
    exact hall ▸ List.prefix_refl _

/-- A task that has ended has written all that is to be, and has ended as it is to. -/
lemma relayed_of_stopped {inputs : List Input}
    (hrun : (Forward.after serde inputs).status ≠ .running)
    (hwrite : (Forward.after serde inputs).status ≠ .writeFailed) :
    relayed serde (arrived inputs) =
      ((Forward.after serde inputs).written, (Forward.after serde inputs).status) := by
  have hfollows := follows_after serde inputs
  unfold Follows at hfollows
  cases hs : (Forward.after serde inputs).status with
  | running => exact absurd hs hrun
  | writeFailed => exact absurd hs hwrite
  | finished | failed e | panicked =>
    simp only [hs] at hfollows
    rw [← hfollows [] fun _ => rfl, List.append_nil]

/-- Once the stream has ended, a task ends that has turns enough. -/
lemma stopped_of_polls {before after : List Input} (hb : Input.close ∉ before)
    (hn : (arrived before).length < after.countP Input.isPoll) :
    (Forward.after serde (before ++ .close :: after)).status ≠ .running := by
  have hbound : Bounded (before.foldl (Forward.step serde) .start) ([] ++ arrived before) :=
    foldl_bounded before bounded_start rfl hb
  have hle := hbound.2 []
  have hlen := headersIn_le_length (arrived before)
  simp only [List.nil_append, List.append_nil] at hle
  rw [Forward.after, List.foldl_append, List.foldl_cons]
  exact @ended_of_polls serde ((before.foldl (Forward.step serde) .start).step serde .close)
    hbound.1 rfl after (lt_of_le_of_lt (hle.trans hlen) hn)

/-! ### Both tasks -/

/-- The inputs of a task, of those of both. -/
def mine (side : Side) (inputs : List (Side × Input)) : List Input :=
  (inputs.filter (·.1 = side)).map (·.2)

/-- **The tasks do not meet**: each goes on as it would alone. -/
lemma foldl_step (side : Side) (inputs : List (Side × Input)) (proxy : Proxy) :
    inputs.foldl (step serde) proxy side =
      (mine side inputs).foldl (Forward.step serde) (proxy side) := by
  induction inputs generalizing proxy with
  | nil => rfl
  | cons i inputs ih =>
    rw [List.foldl_cons, ih]
    by_cases hs : i.1 = side
    · subst hs
      simp [mine, step]
    · have hne : side ≠ i.1 := fun e => hs e.symm
      simp [mine, step, hs, Function.update_of_ne hne]

/-- Both tasks have come to the end of their streams where the proxy says so. -/
lemma finished_of_outcome {proxy : Proxy} (h : outcome proxy = .finished) (side : Side) :
    (proxy side).status = .finished := by
  have hclient : (proxy .client).status = .finished := by
    unfold outcome at h
    split at h
    · assumption
    · exact h
  cases side with
  | client => exact hclient
  | backend =>
    simp only [outcome, hclient] at h
    exact h

/-- **The proxy forwards what it is given**: however the bytes are cut and whatever the other
direction does, all that has been written to one side is the beginning of the messages of the
other, written again; once the task has ended, it is all of them and the task has ended as the
bytes say; it has ended once the stream has and there were turns enough; and where the proxy
returns without an error, both streams have ended between two messages and are forwarded. -/
theorem forwards_exactly (serde : Serde) (inputs : List (Side × Input)) (side : Side) :
    let f := inputs.foldl (step serde) start side
    (∀ later, (Input.close ∈ mine side inputs → later = []) →
      f.written <+: (relayed serde (arrived (mine side inputs) ++ later)).1) ∧
    (f.status ≠ .running → f.status ≠ .writeFailed →
      relayed serde (arrived (mine side inputs)) = (f.written, f.status)) ∧
    (∀ before after, mine side inputs = before ++ .close :: after → Input.close ∉ before →
      (arrived before).length < after.countP Input.isPoll → f.status ≠ .running) ∧
    (outcome (inputs.foldl (step serde) start) = .finished →
      relayed serde (arrived (mine side inputs)) = (f.written, .finished)) := by
  intro f
  have hf : f = .after serde (mine side inputs) := foldl_step side inputs start
  refine ⟨fun later h => hf ▸ written_prefix _ h, fun hrun hwrite => ?_,
    fun before after hmine hb hn => ?_, fun hout => ?_⟩
  · rw [hf] at hrun hwrite ⊢
    exact relayed_of_stopped hrun hwrite
  · rw [hf, hmine]
    exact stopped_of_polls hb hn
  · have hs : f.status = .finished := finished_of_outcome hout side
    rw [hf] at hs ⊢
    rw [relayed_of_stopped (by simp [hs]) (by simp [hs]), hs]

/-! ### Proxies in a row -/

/-- A task is given a whole stream and turns enough, no write of it fails, and this is what it
has written then. -/
def Carries (serde : Serde) (inputs : List Input) (given out : List UInt8) : Prop :=
  (∃ before after, inputs = before ++ .close :: after ∧ Input.close ∉ before ∧
    arrived before = given ∧ given.length < after.countP Input.isPoll) ∧
  (Forward.after serde inputs).status ≠ .writeFailed ∧ (Forward.after serde inputs).written = out

/-- Each task is given what the one before it has written. -/
def Chained (serde : Serde) : List (List Input) → List UInt8 → List UInt8 → Prop
  | [], given, out => given = out
  | inputs :: hops, given, out => ∃ mid, Carries serde inputs given mid ∧ Chained serde hops mid out

lemma Carries.relayed_fst {inputs : List Input} {out : List UInt8}
    (h : Carries serde inputs given out) : (relayed serde given).1 = out := by
  obtain ⟨⟨before, after, rfl, hb, rfl, hn⟩, hwrite, hout⟩ := h
  have hstop := relayed_of_stopped (stopped_of_polls hb hn) hwrite
  rw [arrived_of_close hb] at hstop
  rw [hstop, hout]

lemma writeAll_cons_ok {message : Message} {messages : List Message} {bytes : List UInt8}
    (h : Framing.writeAll serde (message :: messages) = .ok bytes) :
    ∃ body more, serde.toVec message = some body ∧ Framing.writeAll serde messages = .ok more ∧
      bytes = frame body.1 ++ more := by
  obtain ⟨first, hfirst, h⟩ := Effect.except_bind_eq_ok.mp h
  obtain ⟨more, hmore, h⟩ := Effect.except_bind_eq_ok.mp h
  unfold writeMessage at hfirst
  split at hfirst
  · cases hfirst
  · rename_i body hbody
    exact ⟨body, more, hbody, hmore, by rw [← Except.ok.inj h, ← Except.ok.inj hfirst]⟩

/-- The messages of a stream of frames are written one after the other. -/
lemma relayed_stream {frames : List (Frame serde)} {bytes : List UInt8}
    (hw : Framing.writeAll serde (frames.map Frame.message) = .ok bytes) :
    relayed serde (stream frames) = (bytes, .finished) := by
  induction frames generalizing bytes with
  | nil =>
    obtain rfl := Except.ok.inj hw
    exact @relayed_of_ended serde (stream []) [] rfl
  | cons f frames ih =>
    obtain ⟨body, more, hbody, hmore, rfl⟩ := writeAll_cons_ok hw
    have hread : readMessage serde (stream (f :: frames)) =
        .ready (.ok (some f.message)) (stream frames) := by
      rw [readMessage, stream_cons, poll_frame f.body.2, deserialize, f.accepted]
    have hwrite : writeMessage serde f.message = .ok (frame body.1) := by
      simp only [writeMessage, hbody]
    rw [relayed_message hread hwrite, ih hmore]

/-- What is written is a stream of frames of the same messages. -/
lemma exists_frames {messages : List Message} {bytes : List UInt8}
    (hback : ∀ message ∈ messages, ∀ body, serde.toVec message = some body →
      serde.fromSlice body.1 = some message)
    (hw : Framing.writeAll serde messages = .ok bytes) :
    ∃ frames : List (Frame serde), frames.map Frame.message = messages ∧
      stream frames = bytes := by
  induction messages generalizing bytes with
  | nil => exact ⟨[], rfl, Except.ok.inj hw⟩
  | cons message messages ih =>
    obtain ⟨body, more, hbody, hmore, rfl⟩ := writeAll_cons_ok hw
    obtain ⟨frames, hmessages, hstream⟩ :=
      ih (fun m hm => hback m (List.mem_cons_of_mem _ hm)) hmore
    refine ⟨⟨body, message, hback message List.mem_cons_self body hbody⟩ :: frames, ?_, ?_⟩
    · rw [List.map_cons, hmessages]
    · rw [stream_cons, hstream]

/-- **Any number of proxies in a row** deliver the messages of the first stream, each once and in
order, as the first of them writes them: what one proxy has written comes out of the next one
unchanged, however the bytes are cut at each. -/
theorem chained_delivers {hops : List (List Input)} {frames : List (Frame serde)}
    {bytes out : List UInt8} (hne : hops ≠ [])
    (hw : Framing.writeAll serde (frames.map Frame.message) = .ok bytes)
    (hback : ∀ f ∈ frames, ∀ body, serde.toVec f.message = some body →
      serde.fromSlice body.1 = some f.message)
    (h : Chained serde hops (stream frames) out) : out = bytes := by
  induction hops generalizing frames with
  | nil => exact absurd rfl hne
  | cons inputs hops ih =>
    obtain ⟨mid, hcarries, hrest⟩ := h
    have hmid : mid = bytes := by
      rw [← hcarries.relayed_fst, relayed_stream hw]
    subst hmid
    cases hops with
    | nil => exact hrest.symm
    | cons inputs' hops =>
      have hback' : ∀ message ∈ frames.map Frame.message, ∀ body,
          serde.toVec message = some body → serde.fromSlice body.1 = some message := by
        intro message hm
        obtain ⟨f, hf, rfl⟩ := List.mem_map.mp hm
        exact hback f hf
      obtain ⟨again, hmessages, hstream⟩ := exists_frames hback' hw
      rw [← hstream] at hrest
      refine ih (List.cons_ne_nil _ _) (hmessages ▸ hw) (fun f hf => ?_) hrest
      have hm : f.message ∈ frames.map Frame.message := by
        rw [← hmessages]
        exact List.mem_map_of_mem hf
      exact hback' f.message hm

/-- Where no write fails, none has failed. -/
lemma status_ne_writeFailed {inputs : List Input} (h : ∀ n, Input.poll (.error n) ∉ inputs)
    (hf : f.status ≠ .writeFailed) :
    (inputs.foldl (Forward.step serde) f).status ≠ .writeFailed := by
  induction inputs generalizing f with
  | nil => exact hf
  | cons i inputs ih =>
    refine ih (fun n hn => h n (List.mem_cons_of_mem _ hn)) ?_
    cases i with
    | arrive chunk => simp only [Forward.step]; split_ifs <;> exact hf
    | close => exact hf
    | poll write =>
      match write with
      | .error n => exact absurd List.mem_cons_self (h n)
      | .ok () =>
        simp only [Forward.step]
        split_ifs with hrun
        · split
          · unfold Forward.send
            split
            · simp
            · exact hf
          · simp
          · simp
          · exact hf
          · simp
        · exact hf

/-- A whole stream in these pieces, and turns enough. -/
def served (pieces : List (List UInt8)) : List Input :=
  pieces.map .arrive ++
    .close :: List.replicate (pieces.flatten.length + 1) (.poll (.ok ()))

lemma carries_served (serde : Serde) (pieces : List (List UInt8)) :
    Carries serde (served pieces) pieces.flatten (relayed serde pieces.flatten).1 := by
  have harrived : arrived (pieces.map .arrive) = pieces.flatten := by
    induction pieces with
    | nil => rfl
    | cons piece pieces ih => simp [arrived, ih]
  have hb : Input.close ∉ pieces.map Input.arrive := by simp
  have hn : (arrived (pieces.map Input.arrive)).length <
      (List.replicate (pieces.flatten.length + 1) (Input.poll (.ok ()))).countP Input.isPoll := by
    simp [harrived, List.countP_replicate, Input.isPoll]
  have hwrite : (Forward.after serde (served pieces)).status ≠ .writeFailed :=
    status_ne_writeFailed (by simp [served]) (by simp [Forward.start])
  have hstop := relayed_of_stopped (stopped_of_polls hb hn) hwrite
  rw [arrived_of_close hb, harrived] at hstop
  exact ⟨⟨_, _, rfl, hb, harrived, harrived ▸ hn⟩, hwrite, (congrArg Prod.fst hstop).symm⟩

/-- The message arrives in two parts at the first proxy, and whole at the second. -/
def stoppedPieces : List (List UInt8) :=
  [(frame Framing.stoppedText.1).take 5, (frame Framing.stoppedText.1).drop 5]

theorem chained_delivers_stopped :
    ∃ out, Chained Framing.stoppedSerde
        [served stoppedPieces, served [(relayed Framing.stoppedSerde (stream [stoppedFrame])).1]]
        (stream [stoppedFrame]) out ∧ out = frame Framing.stoppedText.1 := by
  have hpieces : stoppedPieces.flatten = stream [stoppedFrame] := by
    simp [stoppedPieces, stream, stoppedFrame]
  have hfirst := carries_served Framing.stoppedSerde stoppedPieces
  rw [hpieces] at hfirst
  have hsecond := carries_served Framing.stoppedSerde
    [(relayed Framing.stoppedSerde (stream [stoppedFrame])).1]
  simp only [List.flatten_cons, List.flatten_nil, List.append_nil] at hsecond
  have hw : Framing.writeAll Framing.stoppedSerde ([stoppedFrame].map Frame.message) =
      .ok (frame Framing.stoppedText.1) := by
    have hone : Framing.writeAll Framing.stoppedSerde [Framing.stopped] =
        .ok (frame Framing.stoppedText.1 ++ []) := rfl
    rw [List.append_nil] at hone
    exact hone
  have hchained : Chained Framing.stoppedSerde
      [served stoppedPieces, served [(relayed Framing.stoppedSerde (stream [stoppedFrame])).1]]
      (stream [stoppedFrame]) _ := ⟨_, hfirst, _, hsecond, rfl⟩
  have hback : ∀ f ∈ [stoppedFrame], ∀ body, Framing.stoppedSerde.toVec f.message = some body →
      Framing.stoppedSerde.fromSlice body.1 = some f.message := by
    intro f hf body hbody
    obtain rfl := List.mem_singleton.mp hf
    obtain rfl := Option.some.inj hbody
    exact stoppedFrame.accepted
  exact ⟨_, hchained, chained_delivers (List.cons_ne_nil _ _) hw hback hchained⟩

end DappyCore.TransparentProxy
