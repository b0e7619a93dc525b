import DappyCore.Lib.Machine
import DappyCore.HeaderLines
import DappyCore.Framing

/-!
A `ReadChannel` whose `recv` is cancelled while it waits, as a timeout does. What a cancelled
call took is not given back, so that no message is lost only if it has taken nothing.
-/

namespace DappyCore.Recv

open Lib Lib.Machine Protocol Transport

/-- What has arrived and is not taken yet, the call that is waiting, and what the calls before it
returned. -/
structure ReadChannel where
  buffered : List UInt8
  recv : ReadFuture
  returned : List ReadResult

def ReadChannel.new : ReadChannel := ⟨[], .start, []⟩

inductive Input
  | arrive (chunk : List UInt8)
  | poll
  | cancel
  deriving DecidableEq

variable (serde : Serde)

def step (eof : Bool) (c : ReadChannel) : Input → Result ReadChannel Unit
  | .arrive chunk => ({ c with buffered := c.buffered ++ chunk }, .ok ())
  | .poll =>
    match poll serde eof c.recv c.buffered with
    | .ready result rest => (⟨rest, .start, c.returned ++ [result]⟩, .ok ())
    | .pending future => ({ c with buffered := [], recv := future }, .ok ())
    | .panicked => (c, .error ())
  -- the future is dropped with what it took, and the next call begins anew
  | .cancel => ({ c with recv := .start }, .ok ())

def Input.chunk : Input → List UInt8
  | .arrive chunk => chunk
  | _ => []

/-- All the bytes that arrive. -/
def arrived (inputs : List Input) : List UInt8 := inputs.flatMap Input.chunk

/-- What the calls return up to the end of the stream, of which so many come after it. -/
def receiveFrom (c : ReadChannel) (inputs : List Input) (calls : ℕ) : List ReadResult :=
  match run (step serde false) c inputs with
  | (c', .ok ()) => (run (step serde true) c' (List.replicate calls .poll)).1.returned
  | (c', .error _) => c'.returned

def receive (inputs : List Input) (calls : ℕ) : List ReadResult :=
  receiveFrom serde .new inputs calls

def messages (results : List ReadResult) : List Message :=
  results.filterMap fun result => result.toOption.join

/-- A body that is a message, with the header for it. -/
structure Frame where
  body : Vec
  message : Message
  accepted : serde.fromSlice body.1 = some message

variable {serde}

def stream (frames : List (Frame serde)) : List UInt8 := frames.flatMap fun f => frame f.body.1

/-- What `serde_json` accepts has no raw line feed in a string, and no `C` outside of one: the
string with the name in it ends before the line does. -/
def StringsEnd (serde : Serde) : Prop :=
  ∀ body message front rest more, serde.fromSlice body = some message →
    body = front ++ nameBytes ++ rest ++ lineFeed :: more → quote ∈ rest

@[simp] lemma messages_append (a b : List ReadResult) :
    messages (a ++ b) = messages a ++ messages b := by
  simp [messages]

lemma length_messages_singleton (result : ReadResult) : (messages [result]).length ≤ 1 := by
  have h := List.length_filterMap_le (fun result : ReadResult => result.toOption.join) [result]
  exact h

lemma arrived_cons (i : Input) (inputs : List Input) :
    arrived (i :: inputs) = i.chunk ++ arrived inputs := by
  simp [arrived]

lemma arrived_replicate_poll (n : ℕ) : arrived (List.replicate n .poll) = [] := by
  simp [arrived, Input.chunk]

/-! ### A message costs a header line -/

/-- The call took no more than the line or the body it waits for. -/
def Unbroken : ReadFuture → Prop
  | .header _ _ lineBuf => lineFeed ∉ lineBuf
  | .body length filled => filled.length ≤ length

lemma unbroken_start : Unbroken .start := List.not_mem_nil

/-- How many messages there can still be: the header lines left, and the one already read. -/
def prospects : ReadFuture → List UInt8 → ℕ
  | .header contentLength _ lineBuf, input =>
    contentLength.isSome.toNat + headersIn (lineBuf ++ input)
  | .body _ _, input => 1 + headersIn input

lemma prospects_start (input : List UInt8) : prospects .start input = headersIn input := by
  simp [prospects, ReadFuture.start]

lemma headersIn_le_prospects (future : ReadFuture) (input : List UInt8) :
    headersIn input ≤ prospects future input := by
  cases future with
  | header contentLength sawHeader lineBuf =>
    have h := headersIn_suffix lineBuf input
    rw [prospects]
    omega
  | body length filled =>
    rw [prospects]
    omega

/-- The poll stays within the bound, whatever comes later. -/
def Within (p : Poll) (later : List UInt8) (bound : ℕ) : Prop :=
  match p with
  | .ready result rest => (messages [result]).length + headersIn (rest ++ later) ≤ bound
  | .pending future => Unbroken future ∧ prospects future later ≤ bound
  | .panicked => True

variable {eof : Bool} {later : List UInt8}

lemma Within.mono {p : Poll} {bound bound' : ℕ} (h : Within p later bound)
    (hle : bound ≤ bound') : Within p later bound' := by
  cases p with
  | ready result rest => exact Nat.le_trans h hle
  | pending future => exact ⟨h.1, Nat.le_trans h.2 hle⟩
  | panicked => trivial

lemma within_error (e : ProtocolError) {rest : List UInt8} {bound : ℕ}
    (h : headersIn (rest ++ later) ≤ bound) : Within (.ready (.error e) rest) later bound := by
  have hnone : (messages [Except.error e]).length = 0 := rfl
  simp only [Within]
  omega

lemma within_readBody {length : ℕ} {filled : List UInt8} (hf : filled.length ≤ length)
    (input : List UInt8) :
    Within (readBody serde eof length filled input) later (1 + headersIn (input ++ later)) := by
  unfold readBody
  by_cases h : length ≤ (filled ++ input).length
  · simp only [h, if_true, Within]
    have hone := length_messages_singleton (deserialize serde ((filled ++ input).take length))
    have hdrop : (filled ++ input).drop length = input.drop (length - filled.length) := by
      rw [List.drop_append, List.drop_eq_nil_of_le hf, List.nil_append]
    have hsuffix := headersIn_suffix (input.take (length - filled.length))
      (input.drop (length - filled.length) ++ later)
    rw [← List.append_assoc, List.take_append_drop] at hsuffix
    rw [hdrop]
    omega
  · have hsuffix := headersIn_suffix input later
    simp only [h, if_false]
    cases eof with
    | true => exact within_error .io (by rw [List.nil_append]; omega)
    | false =>
      simp only [Bool.false_eq_true, if_false, Within, prospects]
      exact ⟨by simp only [Unbroken]; omega, by omega⟩

lemma within_startBody (contentLength : Option ℕ) (input : List UInt8) :
    Within (startBody serde eof contentLength input) later
      (contentLength.isSome.toNat + headersIn (input ++ later)) := by
  cases contentLength with
  | none => exact within_error _ (by omega)
  | some length =>
    unfold startBody
    by_cases h : isizeMax < length
    · simp only [h, if_true, Within]
    · simp only [h, if_false]
      exact within_readBody (Nat.zero_le _) input

lemma within_endOfStream (sawHeader : Bool) {bound : ℕ} (h : headersIn later ≤ bound) :
    Within (endOfStream sawHeader) later bound := by
  cases sawHeader with
  | true => exact within_error _ h
  | false =>
    have hnone : (messages [Except.ok none]).length = 0 := rfl
    simp only [endOfStream, Bool.false_eq_true, if_false, Within, List.nil_append]
    omega

/-- What is read of the header is paid for by the lines it was in. -/
lemma within_readHeader {contentLength : Option ℕ} {sawHeader : Bool} {lineBuf : List UInt8}
    (hl : lineFeed ∉ lineBuf) (input : List UInt8) :
    Within (readHeader serde eof contentLength sawHeader lineBuf input) later
      (contentLength.isSome.toNat + headersIn (lineBuf ++ (input ++ later))) := by
  induction input generalizing contentLength sawHeader lineBuf with
  | nil =>
    -- the input ends in the line, or at its start
    have hsuffix := headersIn_suffix lineBuf later
    rw [List.nil_append]
    unfold readHeader
    cases eof with
    | true =>
      simp only [if_true]
      by_cases hne : lineBuf = []
      · simp only [hne, if_true]
        exact within_endOfStream sawHeader (by rw [List.nil_append]; omega)
      · simp only [hne, if_false]
        cases headerLine lineBuf with
        | blank => exact (within_startBody contentLength []).mono (by rw [List.nil_append]; omega)
        | length n => exact within_endOfStream true (by omega)
        | invalid e => exact within_error e (by rw [List.nil_append]; omega)
    | false =>
      simp only [Bool.false_eq_true, if_false, Within, prospects]
      exact ⟨hl, le_rfl⟩
  | cons b input ih =>
    unfold readHeader
    by_cases hb : b = lineFeed
    · -- the line is complete
      have hline := headersIn_line hl (input ++ later)
      simp only [hb, if_true, List.cons_append]
      cases hh : headerLine (lineBuf ++ [lineFeed]) with
      | blank => exact (within_startBody contentLength input).mono (by omega)
      | length n =>
        have hone : (isLength (headerLine (lineBuf ++ [lineFeed]))).toNat = 1 := by rw [hh]; rfl
        refine (ih List.not_mem_nil).mono ?_
        rw [List.nil_append, Option.isSome_some, Bool.toNat_true]
        omega
      | invalid e => exact within_error e (by omega)
    · -- the line goes on
      have hlb : lineFeed ∉ lineBuf ++ [b] := by
        simp only [List.mem_append, List.mem_singleton, not_or]
        exact ⟨hl, fun e => hb e.symm⟩
      have happ : lineBuf ++ [b] ++ (input ++ later) = lineBuf ++ (b :: input ++ later) := by simp
      simp only [hb, if_false]
      rw [← happ]
      exact ih hlb

lemma within_poll {future : ReadFuture} (hu : Unbroken future) (input : List UInt8) :
    Within (poll serde eof future input) later (prospects future (input ++ later)) := by
  cases future with
  | header contentLength sawHeader lineBuf => exact within_readHeader hu input
  | body length filled => exact within_readBody hu input

/-- The messages returned and those there can still be. -/
def bound (c : ReadChannel) (later : List UInt8) : ℕ :=
  (messages c.returned).length + prospects c.recv (c.buffered ++ later)

/-- **One step** stays within the bound. -/
lemma bound_step (later : List UInt8) {c c' : ReadChannel} {i : Input} (hu : Unbroken c.recv)
    (h : step serde eof c i = (c', .ok ())) :
    Unbroken c'.recv ∧ bound c' later ≤ bound c (i.chunk ++ later) := by
  cases i with
  | arrive chunk =>
    obtain rfl := congrArg Prod.fst h
    refine ⟨hu, ?_⟩
    simp only [bound, step, Input.chunk, List.append_assoc]
    exact le_rfl
  | cancel =>
    obtain rfl := congrArg Prod.fst h
    -- what the call has read is lost with it
    have hle := headersIn_le_prospects c.recv (c.buffered ++ later)
    refine ⟨unbroken_start, ?_⟩
    simp only [bound, step, Input.chunk, List.nil_append, prospects_start]
    omega
  | poll =>
    have hw : Within (poll serde eof c.recv c.buffered) later
        (prospects c.recv (c.buffered ++ later)) := within_poll hu c.buffered
    simp only [step] at h
    cases hp : poll serde eof c.recv c.buffered with
    | ready result rest =>
      simp only [hp] at h hw
      obtain rfl := congrArg Prod.fst h
      refine ⟨unbroken_start, ?_⟩
      simp only [bound, Input.chunk, List.nil_append, prospects_start, messages_append,
        List.length_append]
      simp only [Within] at hw
      omega
    | pending future =>
      simp only [hp] at h hw
      obtain rfl := congrArg Prod.fst h
      refine ⟨hw.1, ?_⟩
      have hle := hw.2
      simp only [bound, Input.chunk, List.nil_append]
      omega
    | panicked =>
      simp only [hp] at h
      exact absurd (congrArg Prod.snd h) (by simp)

lemma returned_of_error {c c' : ReadChannel} {i : Input}
    (h : step serde eof c i = (c', .error ())) : c' = c := by
  cases i with
  | arrive chunk => exact absurd (congrArg Prod.snd h) (by simp [step])
  | cancel => exact absurd (congrArg Prod.snd h) (by simp [step])
  | poll =>
    simp only [step] at h
    cases hp : poll serde eof c.recv c.buffered with
    | ready result rest => simp [hp] at h
    | pending future => simp [hp] at h
    | panicked =>
      simp only [hp] at h
      exact (congrArg Prod.fst h).symm

/-- **Every run** stays within the bound. -/
lemma bound_run (later : List UInt8) {c c' : ReadChannel} {inputs : List Input}
    (hu : Unbroken c.recv) (h : run (step serde eof) c inputs = (c', .ok ())) :
    Unbroken c'.recv ∧ bound c' later ≤ bound c (arrived inputs ++ later) := by
  induction inputs generalizing c with
  | nil =>
    obtain rfl := congrArg Prod.fst h
    exact ⟨hu, le_rfl⟩
  | cons i inputs ih =>
    rcases step_ok_or_error (step serde eof) c i with ⟨d, hd⟩ | ⟨d, e, hd⟩
    · rw [run_cons_ok hd] at h
      obtain ⟨hud, hstep⟩ := bound_step (arrived inputs ++ later) hu hd
      obtain ⟨huc, hrun⟩ := ih hud h
      refine ⟨huc, ?_⟩
      rw [arrived_cons, List.append_assoc]
      calc bound c' later
        _ ≤ bound d (arrived inputs ++ later) := hrun
        _ ≤ bound c (i.chunk ++ (arrived inputs ++ later)) := hstep
    · simp [run_cons_error hd] at h

/-- What was returned is within the bound, also where the run ended in a panic. -/
lemma returned_run_le (serde : Serde) (eof : Bool) {c : ReadChannel} (inputs : List Input)
    (hu : Unbroken c.recv) :
    (messages (run (step serde eof) c inputs).1.returned).length ≤ bound c (arrived inputs) := by
  induction inputs generalizing c with
  | nil => exact Nat.le_add_right _ _
  | cons i inputs ih =>
    rcases step_ok_or_error (step serde eof) c i with ⟨d, hd⟩ | ⟨d, ⟨⟩, hd⟩
    · obtain ⟨hud, hstep⟩ := bound_step (arrived inputs) hu hd
      rw [run_cons_ok hd, arrived_cons]
      calc (messages (run (step serde eof) d inputs).1.returned).length
        _ ≤ bound d (arrived inputs) := ih hud
        _ ≤ bound c (i.chunk ++ arrived inputs) := hstep
    · rw [run_cons_error hd, returned_of_error hd]
      exact Nat.le_add_right _ _

/-- **No more messages than header lines** are returned in all. -/
theorem received_le {c : ReadChannel} (hu : Unbroken c.recv) (inputs : List Input) (calls : ℕ) :
    (messages (receiveFrom serde c inputs calls)).length ≤ bound c (arrived inputs) := by
  have hfirst := returned_run_le serde false inputs hu
  unfold receiveFrom
  rcases hr : run (step serde false) c inputs with ⟨d, _ | _⟩
  · rw [hr] at hfirst
    exact hfirst
  · obtain ⟨hud, hd⟩ := bound_run [] hu hr
    have hlast := returned_run_le serde true (List.replicate calls .poll) hud
    rw [arrived_replicate_poll] at hlast
    rw [List.append_nil] at hd
    calc (messages (run (step serde true) d (List.replicate calls .poll)).1.returned).length
      _ ≤ bound d [] := hlast
      _ ≤ bound c (arrived inputs) := hd

/-! ### A frame has one header line -/

lemma stream_cons (f : Frame serde) (frames : List (Frame serde)) :
    stream (f :: frames) = frame f.body.1 ++ stream frames := by
  simp [stream]

lemma frame_eq_cons (body : List UInt8) : ∃ rest, frame body = letterC :: rest :=
  ⟨_, rfl⟩

/-- In the header only the first byte is a `C`. -/
lemma letterC_notMem_tail (n : ℕ) : letterC ∉ (Utf8.encode (header n)).tail := by
  intro h
  have htail : (Utf8.encode (header n)).tail = Utf8.encode (header n).tail := rfl
  rw [htail] at h
  have hc : 'C' ∈ (header n).tail := Utf8.mem_of_mem_encode h (by decide)
  have hheader : (header n).tail =
      contentLengthName.tail ++ ' ' :: (Nat.toDigits 10 n ++ ['\r', '\n', '\r', '\n']) := rfl
  simp only [hheader, List.mem_append, List.mem_cons, List.not_mem_nil, or_false] at hc
  rcases hc with hc | hc | hc | hc
  · exact absurd hc (by decide)
  · exact absurd hc (by decide)
  · exact absurd (isDigit_of_mem hc) (by decide)
  · exact absurd hc (by decide)

/-- No header line starts within a body. -/
lemma body_no_header (hs : StringsEnd serde) (f : Frame serde) (frames : List (Frame serde))
    {a b : List UInt8} (hbody : f.body.1 = a ++ b) (hb : b ≠ []) :
    ¬ startsHeader (b ++ stream frames) := by
  intro h
  obtain ⟨rest, more, heq, hq, hC⟩ := shape_of_startsHeader h
  have hline : b ++ stream frames = (nameBytes ++ rest ++ [lineFeed]) ++ more := by
    rw [heq, List.append_assoc, List.append_assoc, List.append_assoc, List.singleton_append]
  have hwhole : ∀ mid, b ≠ nameBytes ++ rest ++ [lineFeed] ++ mid := by
    intro mid hmid
    refine hq (hs f.body.1 f.message a rest mid f.accepted ?_)
    rw [hbody, hmid]
    simp
  rcases List.append_eq_append_iff.mp hline with ⟨mid, hmid, hrest⟩ | ⟨mid, hmid, -⟩
  · cases mid with
    | nil => exact hwhole [] (by rw [hmid, List.append_nil, List.append_nil])
    | cons m mid =>
      -- the line would go on into the next frame, which begins with a `C`
      obtain rfl : m = letterC := by
        cases frames with
        | nil => exact absurd hrest (by simp [stream])
        | cons g frames =>
          obtain ⟨tail, htail⟩ := frame_eq_cons g.body.1
          rw [stream_cons, htail, List.cons_append, List.cons_append] at hrest
          exact (List.cons.inj hrest).1.symm
      obtain ⟨c, b, rfl⟩ := List.exists_cons_of_ne_nil hb
      have hmem : letterC ∈ (nameBytes ++ rest ++ [lineFeed]).tail := by
        rw [hmid, List.cons_append, List.tail_cons]
        exact List.mem_append_right _ List.mem_cons_self
      have htail : (nameBytes ++ rest ++ [lineFeed]).tail =
          nameBytes.tail ++ (rest ++ [lineFeed]) := by
        rw [List.append_assoc]
        rfl
      rw [htail, List.mem_append, List.mem_append] at hmem
      rcases hmem with hm | hm | hm
      · exact absurd hm (by decide)
      · exact hC hm
      · exact absurd hm (by decide)
  · exact hwhole mid hmid

/-- Past its first byte, no header line starts in a frame. -/
lemma frame_no_header (hs : StringsEnd serde) (f : Frame serde) (frames : List (Frame serde))
    {a b : List UInt8} (hf : frame f.body.1 = a ++ b) (ha : a ≠ []) (hb : b ≠ []) :
    ¬ startsHeader (b ++ stream frames) := by
  rcases List.append_eq_append_iff.mp hf with ⟨mid, hmid, hbody⟩ | ⟨mid, hheader, hmid⟩
  · exact body_no_header hs f frames hbody hb
  · cases mid with
    | nil =>
      rw [List.nil_append] at hmid
      exact body_no_header hs f frames (a := []) (by rw [hmid, List.nil_append]) hb
    | cons m mid =>
      intro h
      obtain ⟨rest, more, heq, -, -⟩ := shape_of_startsHeader h
      -- in the rest of the header there is no `C` to start with
      obtain rfl : m = letterC := by
        rw [hmid] at heq
        exact (List.cons.inj heq).1
      obtain ⟨c, a, rfl⟩ := List.exists_cons_of_ne_nil ha
      refine letterC_notMem_tail f.body.1.length ?_
      rw [hheader, List.cons_append, List.tail_cons]
      exact List.mem_append_right _ List.mem_cons_self

/-- What is left of a frame counts for nothing. -/
lemma headersIn_cut (hs : StringsEnd serde) (f : Frame serde) (frames : List (Frame serde))
    {a b : List UInt8} (hf : frame f.body.1 = a ++ b) (ha : a ≠ []) :
    headersIn (b ++ stream frames) = headersIn (stream frames) := by
  refine headersIn_append fun x y hxy hy => ?_
  refine frame_no_header hs f frames (a := a ++ x) ?_ (by simp [ha]) hy
  rw [hf, hxy, List.append_assoc]

lemma headersIn_stream_le (hs : StringsEnd serde) (frames : List (Frame serde)) :
    headersIn (stream frames) ≤ frames.length := by
  induction frames with
  | nil => exact le_rfl
  | cons f frames ih =>
    obtain ⟨rest, hrest⟩ := frame_eq_cons f.body.1
    have hcut := headersIn_cut hs f frames (a := [letterC]) (b := rest) hrest
      (List.cons_ne_nil _ _)
    have hone := Bool.toNat_le (startsHeader (letterC :: (rest ++ stream frames)))
    rw [stream_cons, hrest, List.cons_append, headersIn_cons, hcut, List.length_cons]
    omega

/-! ### While no cancelled call has taken anything -/

/-- The channel is in its place: what the call has taken and what is still to come are the
frames left. -/
def InPlace (c : ReadChannel) (later : List UInt8) (frames : List (Frame serde)) : Prop :=
  ∃ taken, poll serde false .start taken = .pending c.recv ∧
    taken ++ (c.buffered ++ later) = stream frames

/-- A call that has the first frame returns it; one that has less waits. -/
lemma poll_stream {frames : List (Frame serde)} {p q : List UInt8} (h : p ++ q = stream frames) :
    (∃ future, poll serde false .start p = .pending future ∧
        (p = [] ∨ ∃ f rest b, frames = f :: rest ∧ frame f.body.1 = p ++ b ∧
          q = b ++ stream rest)) ∨
      ∃ f rest left, frames = f :: rest ∧
        poll serde false .start p = .ready (.ok (some f.message)) left ∧
        left ++ q = stream rest := by
  cases frames with
  | nil =>
    obtain ⟨rfl, rfl⟩ := List.append_eq_nil_iff.mp h
    exact .inl ⟨.start, rfl, .inl rfl⟩
  | cons f rest =>
    have hframe : ∀ (eof : Bool) left, poll serde eof .start (frame f.body.1 ++ left) =
        .ready (.ok (some f.message)) left := by
      intro eof left
      rw [poll_frame f.body.2, deserialize, f.accepted]
    rw [stream_cons] at h
    rcases List.append_eq_append_iff.mp h with ⟨b, hb, hq⟩ | ⟨left, rfl, hleft⟩
    · by_cases hne : b = []
      · subst hne
        rw [List.append_nil] at hb
        rw [List.nil_append] at hq
        refine .inr ⟨f, rest, [], rfl, ?_, by rw [hq, List.nil_append]⟩
        have hpoll := hframe false []
        rwa [List.append_nil, hb] at hpoll
      · -- with the rest of the frame the call is done, so it is not done yet
        have hdone := hframe false []
        rw [List.append_nil, hb, poll_append] at hdone
        cases hp : poll serde false .start p with
        | ready result left =>
          rw [hp] at hdone
          simp only [Poll.resume, Poll.ready.injEq, List.append_eq_nil_iff] at hdone
          exact absurd hdone.2.2 hne
        | panicked =>
          rw [hp] at hdone
          simp [Poll.resume] at hdone
        | pending future => exact .inl ⟨future, rfl, .inr ⟨f, rest, b, rfl, hb, hq⟩⟩
    · exact .inr ⟨f, rest, left, rfl, hframe false left, hleft.symm⟩

lemma messages_concat_some (results : List ReadResult) (m : Message) :
    messages (results ++ [.ok (some m)]) = messages results ++ [m] := by
  rw [messages_append]
  rfl

/-- **One step** that cancels no call that has taken something. -/
lemma inPlace_step {c : ReadChannel} {i : Input} {later : List UInt8}
    {frames : List (Frame serde)} (h : InPlace c (i.chunk ++ later) frames)
    (hc : i = .cancel → c.recv = .start) :
    ∃ c' read rest, step serde false c i = (c', .ok ()) ∧ frames = read ++ rest ∧
      messages c'.returned = messages c.returned ++ read.map Frame.message ∧
      InPlace c' later rest := by
  obtain ⟨taken, hpend, hstream⟩ := h
  cases i with
  | arrive chunk =>
    refine ⟨_, [], frames, rfl, rfl, by simp, taken, hpend, ?_⟩
    rw [← hstream]
    simp [Input.chunk]
  | cancel =>
    rw [hc rfl] at hpend
    obtain rfl := eq_nil_of_pending_start hpend
    refine ⟨_, [], frames, rfl, rfl, by simp, [], rfl, ?_⟩
    rw [← hstream]
    rfl
  | poll =>
    have hpoll : poll serde false c.recv c.buffered =
        poll serde false .start (taken ++ c.buffered) := (poll_append_pending hpend _).symm
    have hp : (taken ++ c.buffered) ++ later = stream frames := by
      rw [← hstream]
      simp [Input.chunk]
    rcases poll_stream hp with ⟨future, hf, -⟩ | ⟨f, rest, left, rfl, hf, hleft⟩
    · refine ⟨_, [], frames, by rw [step, hpoll, hf], rfl, by simp, taken ++ c.buffered, hf, ?_⟩
      rw [List.nil_append, hp]
    · refine ⟨_, [f], rest, by rw [step, hpoll, hf], rfl, ?_, [], rfl, ?_⟩
      · exact messages_concat_some c.returned f.message
      · rw [List.nil_append, hleft]

/-- Calls after the end of the stream return the frames left. -/
lemma inPlace_drain {c : ReadChannel} {frames : List (Frame serde)} (h : InPlace c [] frames)
    {n : ℕ} (hn : frames.length ≤ n) :
    messages (run (step serde true) c (List.replicate n .poll)).1.returned =
      messages c.returned ++ frames.map Frame.message := by
  induction n generalizing c frames with
  | zero =>
    obtain rfl := List.length_eq_zero_iff.mp (Nat.le_zero.mp hn)
    simp
  | succ n ih =>
    obtain ⟨taken, hpend, hstream⟩ := h
    have hpoll : poll serde true c.recv c.buffered = poll serde true .start (stream frames) := by
      rw [← hstream, List.append_nil, poll_append_pending hpend]
    rw [List.replicate_succ]
    cases frames with
    | nil =>
      have hstep : step serde true c .poll = (⟨[], .start, c.returned ++ [.ok none]⟩, .ok ()) := by
        rw [step, hpoll]
        rfl
      have hplace : InPlace ⟨[], .start, c.returned ++ [.ok none]⟩ [] ([] : List (Frame serde)) :=
        ⟨[], rfl, rfl⟩
      have hnone : messages [(.ok none : ReadResult)] = [] := rfl
      rw [run_cons_ok hstep, ih hplace (Nat.zero_le n), messages_append, hnone, List.append_nil]
    | cons f frames =>
      have hstep : step serde true c .poll =
          (⟨stream frames, .start, c.returned ++ [.ok (some f.message)]⟩, .ok ()) := by
        rw [step, hpoll, stream_cons, poll_frame f.body.2, deserialize, f.accepted]
      rw [run_cons_ok hstep, ih ⟨[], rfl, by simp⟩ (Nat.le_of_succ_le_succ hn),
        messages_concat_some]
      simp

lemma receiveFrom_cons {c c' : ReadChannel} {i : Input} (h : step serde false c i = (c', .ok ()))
    (inputs : List Input) (calls : ℕ) :
    receiveFrom serde c (i :: inputs) calls = receiveFrom serde c' inputs calls := by
  rw [receiveFrom, run_cons_ok h, receiveFrom]

/-- No cancelled call has taken anything. -/
def CancelsIdle (serde : Serde) (c : ReadChannel) (inputs : List Input) : Prop :=
  ∀ v ∈ visits (step serde false) c inputs, v.2 = .cancel → v.1.recv = .start

/-- **Idle cancellations** lose nothing. -/
lemma received_of_idle {c : ReadChannel} {inputs : List Input} {frames : List (Frame serde)}
    (h : InPlace c (arrived inputs) frames) (hidle : CancelsIdle serde c inputs) {n : ℕ}
    (hn : frames.length ≤ n) :
    messages (receiveFrom serde c inputs n) = messages c.returned ++ frames.map Frame.message := by
  induction inputs generalizing c frames with
  | nil => exact inPlace_drain h hn
  | cons i inputs ih =>
    rw [arrived_cons] at h
    obtain ⟨c', read, rest, hstep, rfl, hret, hnext⟩ := inPlace_step h
      (hidle (c, i) (by rw [visits]; exact List.mem_cons_self))
    rw [CancelsIdle, visits_cons_ok hstep] at hidle
    have hlen : rest.length ≤ n := by
      rw [List.length_append] at hn
      omega
    rw [receiveFrom_cons hstep, ih hnext (fun v hv => hidle v (List.mem_cons_of_mem _ hv)) hlen,
      hret, List.map_append, List.append_assoc]

/-- **A call cancelled in a frame** loses it, and nothing later makes up for it. -/
lemma received_lt (hs : StringsEnd serde) {c : ReadChannel} {inputs : List Input}
    {frames : List (Frame serde)} (h : InPlace c (arrived inputs) frames)
    (hbad : ¬ CancelsIdle serde c inputs) (n : ℕ) :
    (messages (receiveFrom serde c inputs n)).length <
      (messages c.returned).length + frames.length := by
  induction inputs generalizing c frames with
  | nil => exact absurd (fun v hv => by simp [visits] at hv) hbad
  | cons i inputs ih =>
    rw [arrived_cons] at h
    by_cases hnow : i = .cancel → c.recv = .start
    · -- it is not cancelled in this step, but later
      obtain ⟨c', read, rest, hstep, rfl, hret, hnext⟩ := inPlace_step h hnow
      have hlater : ¬ CancelsIdle serde c' inputs := by
        intro hidle
        refine hbad fun v hv => ?_
        rw [visits_cons_ok hstep] at hv
        rcases List.mem_cons.mp hv with rfl | hv
        · exact hnow
        · exact hidle v hv
      have hlt := ih hnext hlater
      rw [hret, List.length_append, List.length_map] at hlt
      rw [receiveFrom_cons hstep, List.length_append]
      omega
    · -- it is cancelled now, with a part of a frame taken: what is left has a header less
      obtain ⟨rfl, hrecv⟩ := Classical.not_imp.mp hnow
      obtain ⟨taken, hpend, hstream⟩ := h
      have htaken : taken ≠ [] := by
        rintro rfl
        exact hrecv (Poll.pending.inj hpend).symm
      rcases poll_stream hstream with
        ⟨_, _, rfl | ⟨f, rest, b, rfl, hf, hq⟩⟩ | ⟨_, _, _, _, hf, _⟩
      · exact absurd rfl htaken
      · have hstep : step serde false c .cancel = ({ c with recv := .start }, .ok ()) := rfl
        have hle : (messages (receiveFrom serde { c with recv := .start } inputs n)).length ≤
            bound { c with recv := .start } (arrived inputs) :=
          received_le unbroken_start inputs n
        have hleft : headersIn (c.buffered ++ arrived inputs) ≤ rest.length := by
          have hq' : c.buffered ++ arrived inputs = b ++ stream rest := hq
          rw [hq', headersIn_cut hs f rest hf htaken]
          exact headersIn_stream_le hs rest
        simp only [bound, prospects_start] at hle
        rw [receiveFrom_cons hstep, List.length_cons]
        omega
      · rw [hpend] at hf
        exact absurd hf (by simp)

lemma messages_calls {frames : List (Frame serde)} {n : ℕ} (hn : frames.length ≤ n) :
    messages (calls serde n (stream frames)) = frames.map Frame.message := by
  induction frames generalizing n with
  | nil =>
    have hnone : ∀ n, messages (calls serde n []) = [] := by
      intro n
      induction n with
      | zero => rfl
      | succ n ih => exact ih
    exact hnone n
  | cons f frames ih =>
    cases n with
    | zero => exact absurd hn (by simp)
    | succ n =>
      have hread : readMessage serde (stream (f :: frames)) =
          .ready (.ok (some f.message)) (stream frames) := by
        rw [readMessage, stream_cons, poll_frame f.body.2, deserialize, f.accepted]
      have hrest := ih (Nat.le_of_succ_le_succ hn)
      simp only [calls, hread, List.map_cons, ← hrest]
      rfl

/-- **Reading is safe under timeouts exactly when** no call is cancelled that has taken
something. -/
theorem receives_iff (hs : StringsEnd serde) (frames : List (Frame serde)) (inputs : List Input)
    (harrived : arrived inputs = stream frames) {n : ℕ} (hn : frames.length ≤ n) :
    messages (receive serde inputs n) = messages (calls serde n (stream frames)) ↔
      CancelsIdle serde .new inputs := by
  have hplace : InPlace ReadChannel.new (arrived inputs) frames :=
    ⟨[], rfl, by rw [harrived]; rfl⟩
  rw [messages_calls hn]
  constructor
  · intro h
    by_contra hbad
    have hlt := received_lt hs hplace hbad n
    have hlen := congrArg List.length h
    rw [List.length_map] at hlen
    have hnew : (messages ReadChannel.new.returned).length = 0 := rfl
    rw [receive] at hlen
    omega
  · intro hidle
    exact received_of_idle hplace hidle hn

def stoppedFrame : Frame Framing.stoppedSerde :=
  ⟨Framing.stoppedText, Framing.stopped, by simp [Framing.stoppedSerde]⟩

lemma stringsEnd_stopped : StringsEnd Framing.stoppedSerde := by
  intro body message front rest more h hbody
  simp only [Framing.stoppedSerde] at h
  split_ifs at h with he
  have hmem : lineFeed ∈ Framing.stoppedText.1 := by
    rw [← he, hbody]
    exact List.mem_append_right _ List.mem_cons_self
  exact absurd hmem (by decide)

/-- The frame arrives in two parts, and a timeout comes between them, or before them. -/
def inTwoParts (before between : List Input) : List Input :=
  before ++ [.arrive ((frame Framing.stoppedText.1).take 5), .poll] ++ between ++
    [.arrive ((frame Framing.stoppedText.1).drop 5), .poll]

lemma arrived_inTwoParts {before between : List Input} (hb : arrived before = [])
    (hm : arrived between = []) :
    arrived (inTwoParts before between) = stream [stoppedFrame] := by
  have happ : ∀ a b : List Input, arrived (a ++ b) = arrived a ++ arrived b := by simp [arrived]
  rw [inTwoParts, happ, happ, happ, hb, hm]
  simp [arrived, Input.chunk, stream, stoppedFrame]

theorem receives_iff_inTwoParts :
    messages (receive Framing.stoppedSerde (inTwoParts [.cancel] []) 1) =
        messages (calls Framing.stoppedSerde 1 (stream [stoppedFrame])) ↔
      CancelsIdle Framing.stoppedSerde .new (inTwoParts [.cancel] []) :=
  receives_iff stringsEnd_stopped [stoppedFrame] (inTwoParts [.cancel] [])
    (arrived_inTwoParts rfl rfl) le_rfl

/-- The message that a timeout cuts in two is lost. -/
theorem timeout_loses_a_message :
    messages (receive Framing.stoppedSerde (inTwoParts [] [.cancel]) 1) ≠
      messages (calls Framing.stoppedSerde 1 (stream [stoppedFrame])) := by
  intro h
  have hplace : InPlace ReadChannel.new (arrived (inTwoParts [] [.cancel])) [stoppedFrame] :=
    ⟨[], rfl, by rw [arrived_inTwoParts rfl rfl]; rfl⟩
  have hbad : ¬ CancelsIdle Framing.stoppedSerde .new (inTwoParts [] [.cancel]) := by
    intro hidle
    have hstart := hidle (⟨[], .header none false (nameBytes.take 5), []⟩, .cancel)
      (.tail _ (.tail _ (.head _))) rfl
    exact absurd hstart (by decide)
  have hlt := received_lt stringsEnd_stopped hplace hbad 1
  have hall : messages (calls Framing.stoppedSerde 1 (stream [stoppedFrame])) =
      [Framing.stopped] := messages_calls le_rfl
  rw [← receive, h, hall] at hlt
  exact absurd hlt (by decide)

end DappyCore.Recv
