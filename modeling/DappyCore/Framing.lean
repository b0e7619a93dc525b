import DappyCore.TransportSteps

/-!
Messages written one after another and read again, from all the bytes or from the first of
them.
-/

namespace DappyCore.Framing

open Lib Protocol Transport

/-- `serde_json` reads the message back from what it writes, which is not nothing. -/
def RoundTrips (serde : Serde) (message : Message) : Prop :=
  ∃ body, serde.toVec message = some body ∧ body.1 ≠ [] ∧ serde.fromSlice body.1 = some message

/-- The bytes of messages written one after another. -/
def writeAll (serde : Serde) : List Message → Except ProtocolError (List UInt8)
  | [] => .ok []
  | message :: messages => do
    let bytes ← writeMessage serde message
    let more ← writeAll serde messages
    return bytes ++ more

def ended : ReadResult := .ok none

/-- Calls in turn return these results, and then that the stream has ended. -/
def Yields (serde : Serde) (input : List UInt8) (results : List ReadResult) : Prop :=
  ∀ n, calls serde n input = (results ++ List.replicate n ended).take n

def received (messages : List Message) : List ReadResult :=
  messages.map fun message => .ok (some message)

/-- What is written is read back. Of what is cut short, the messages that are all there are read
back, and then there is an error, unless the cut is between two messages. -/
def Recovers (serde : Serde) (messages : List Message) : Prop :=
  ∃ bytes, writeAll serde messages = .ok bytes ∧ Yields serde bytes (received messages) ∧
    ∀ cut, cut <+: bytes → cut ≠ bytes →
      ∃ k < messages.length, ∃ whole more, writeAll serde (messages.take k) = .ok whole ∧
        writeAll serde (messages.take (k + 1)) = .ok more ∧ whole <+: cut ∧ ¬ more <+: cut ∧
        if cut = whole then Yields serde cut (received (messages.take k))
        else ∃ e, Yields serde cut (received (messages.take k) ++ [.error e])

variable {serde : Serde} {messages : List Message} {message : Message}

/-! ### Calls in turn -/

lemma readMessage_nil : readMessage serde [] = .ready ended [] := rfl

lemma yields_nil : Yields serde [] [] := by
  intro n
  induction n with
  | zero => rfl
  | succ n ih =>
    rw [List.nil_append] at ih ⊢
    rw [calls, readMessage_nil]
    simp only [ih, List.replicate_succ, List.take_succ_cons]

lemma yields_cons {input rest : List UInt8} {result : ReadResult} {results : List ReadResult}
    (h : readMessage serde input = .ready result rest) (hr : Yields serde rest results) :
    Yields serde input (result :: results) := by
  intro n
  cases n with
  | zero => rfl
  | succ n =>
    have hlen : n ≤ (results ++ List.replicate n ended).length := by simp
    have htake : (results ++ List.replicate (n + 1) ended).take n =
        (results ++ List.replicate n ended).take n := by
      rw [List.replicate_succ', ← List.append_assoc, List.take_append_of_le_length hlen]
    simp only [calls, h, hr n, List.cons_append, List.take_succ_cons, htake]

/-! ### A frame cut short -/

lemma isLineEnd_of_blank {lineBuf : List UInt8} (h : headerLine lineBuf = .blank) :
    ∀ b ∈ lineBuf, b.toNat < 128 → isLineEnd (Char.ofNat b.toNat) := by
  intro b hb hlt
  unfold headerLine at h
  cases hd : Utf8.decode lineBuf with
  | none => simp [hd] at h
  | some text =>
    simp only [hd] at h
    have hnil : text.rdropWhile isLineEnd = [] := by
      by_contra hne
      simp only [hne, if_false] at h
      split at h
      · simp at h
      · split at h <;> simp at h
    rw [Utf8.eq_encode_of_decode hd] at hb
    exact List.rdropWhile_eq_nil_iff.mp hnil _ (Utf8.mem_of_mem_encode hb hlt)

lemma readHeader_eof {contentLength : Option ℕ} {sawHeader : Bool} {lineBuf line : List UInt8}
    (h : lineFeed ∉ line) :
    readHeader serde true contentLength sawHeader lineBuf line =
      readHeader serde true contentLength sawHeader (lineBuf ++ line) [] := by
  induction line generalizing lineBuf with
  | nil => rw [List.append_nil]
  | cons c line ih =>
    have hc : c ≠ lineFeed := fun e => h (e ▸ List.mem_cons_self)
    have hline : lineFeed ∉ line := fun hm => h (List.mem_cons_of_mem _ hm)
    have happ : lineBuf ++ [c] ++ line = lineBuf ++ c :: line := by simp
    calc readHeader serde true contentLength sawHeader lineBuf (c :: line)
      _ = readHeader serde true contentLength sawHeader (lineBuf ++ [c]) line := by
        rw [readHeader, if_neg hc]
      _ = readHeader serde true contentLength sawHeader (lineBuf ++ c :: line) [] := by
        rw [ih hline, happ]

/-- Cut within the first line: whatever number is left of it, the next line is not there. -/
lemma cut_lengthLine {n : ℕ} {cut : List UInt8} (hpre : cut <+: Utf8.encode (lengthLine n))
    (hne : cut ≠ []) : ∃ e, readMessage serde cut = .ready (.error e) [] := by
  have hlf : lineFeed ∉ cut := fun h => lineFeed_notMem_lengthLine n (hpre.subset h)
  have hhead : (67 : UInt8) ∈ cut := by
    obtain ⟨rest, hrest⟩ := hpre
    cases cut with
    | nil => exact absurd rfl hne
    | cons b cut =>
      have hb := congrArg List.head? hrest
      have hb' : some b = some 67 := hb
      rw [Option.some.inj hb']
      exact List.mem_cons_self
  rw [readMessage, ReadFuture.start, poll, readHeader_eof hlf, List.nil_append]
  simp only [readHeader, if_true, hne, if_false]
  cases hl : headerLine cut with
  | blank => exact absurd (isLineEnd_of_blank hl 67 hhead (by decide)) (by decide)
  | length m => exact ⟨_, rfl⟩
  | invalid e => exact ⟨e, rfl⟩

lemma readBody_short {length : ℕ} {input : List UInt8} (h : input.length < length) :
    readBody serde true length [] input = .ready (.error .io) [] := by
  simp [readBody, Nat.not_le.mpr h]

lemma prefix_append_cases {cut a b : List UInt8} (h : cut <+: a ++ b) :
    cut <+: a ∨ ∃ rest, cut = a ++ rest ∧ rest <+: b := by
  rcases List.prefix_or_prefix_of_prefix h (List.prefix_append a b) with h' | ⟨rest, rfl⟩
  · exact .inl h'
  · exact .inr ⟨rest, rfl, (List.prefix_append_right_inj a).mp h⟩

/-- Cut within the header. A carriage return alone is taken for the blank line, but then there is
no body. -/
lemma cut_header {n : ℕ} {cut : List UInt8} (hn : n ≤ isizeMax) (hpos : 0 < n)
    (hpre : cut <+: Utf8.encode (header n)) (hne : cut ≠ []) :
    ∃ e, readMessage serde cut = .ready (.error e) [] := by
  rw [encode_header] at hpre
  rcases prefix_append_cases hpre with h | ⟨rest, rfl, hrest⟩
  · exact cut_lengthLine h hne
  rcases List.prefix_cons_iff.mp hrest with rfl | ⟨rest, rfl, hmore⟩
  · rw [List.append_nil] at hne ⊢
    exact cut_lengthLine (List.prefix_refl _) hne
  have hread : readMessage serde (Utf8.encode (lengthLine n) ++ lineFeed :: rest) =
      readHeader serde true (some n) true [] rest :=
    readHeader_lengthLine (usizeMax_of_fits hn) rest
  rw [hread]
  rcases List.prefix_cons_iff.mp hmore with rfl | ⟨rest, rfl, hlast⟩
  · exact ⟨_, rfl⟩
  refine ⟨.io, ?_⟩
  have hshort : startBody serde true (some n) [] = .ready (.error .io) [] := by
    simp only [startBody, Nat.not_lt.mpr hn, if_false]
    exact readBody_short hpos
  rcases List.prefix_cons_iff.mp hlast with rfl | ⟨rest, rfl, hnil⟩
  · -- a carriage return without its line feed reads as the blank line
    have hblank : headerLine [13] = .blank := by
      have he : ([13] : List UInt8) = Utf8.encode ['\r'] := rfl
      rw [he, headerLine, Utf8.decode_encode]
      rfl
    have hne : ([13] : List UInt8) ≠ [] := List.cons_ne_nil _ _
    rw [readHeader_eof (by decide), List.nil_append]
    simp only [readHeader, if_true, hne, if_false, hblank, hshort]
  · -- the whole header, and no body
    obtain rfl := List.prefix_nil.mp hnil
    have hblank : headerLine ([] ++ [13] ++ [lineFeed]) = .blank := headerLine_blank
    have hline : readHeader serde true (some n) true [] ([13] ++ lineFeed :: []) =
        startBody serde true (some n) [] := by
      rw [readHeader_line (by decide), hblank]
    exact hline.trans hshort

/-- **A frame cut short** is an error, wherever the cut is. -/
theorem cut_frame {body cut : List UInt8} (hb : body.length ≤ isizeMax) (hbody : body ≠ [])
    (hpre : cut <+: frame body) (hcut : cut ≠ frame body) (hne : cut ≠ []) :
    ∃ e, readMessage serde cut = .ready (.error e) [] := by
  have hlen : 0 < body.length := List.length_pos_iff.mpr hbody
  rcases prefix_append_cases hpre with h | ⟨rest, rfl, hrest⟩
  · exact cut_header hb hlen h hne
  have hshort : rest.length < body.length := by
    refine lt_of_le_of_ne hrest.length_le fun e => hcut ?_
    rw [hrest.eq_of_length e, frame]
  refine ⟨.io, ?_⟩
  rw [readMessage, poll_header hb, readBody_short hshort]

/-! ### Messages in turn -/

lemma writeAll_cons {body : Vec} {bytes : List UInt8} (hw : serde.toVec message = some body)
    (hb : writeAll serde messages = .ok bytes) :
    writeAll serde (message :: messages) = .ok (frame body.1 ++ bytes) := by
  simp only [writeAll, writeMessage, hw, hb]
  rfl

lemma recovers_nil : Recovers serde [] := by
  refine ⟨[], rfl, yields_nil, fun cut hpre hne => ?_⟩
  exact absurd (List.prefix_nil.mp hpre) hne

/-- **One message more**: a cut is in it or in what follows. -/
theorem recovers_cons (hrt : RoundTrips serde message) (h : Recovers serde messages) :
    Recovers serde (message :: messages) := by
  obtain ⟨body, hw, hne, hread⟩ := hrt
  obtain ⟨bytes, hwrite, hyields, hcuts⟩ := h
  have hmsg : ∀ rest, readMessage serde (frame body.1 ++ rest) =
      .ready (.ok (some message)) rest := by
    intro rest
    rw [readMessage, poll_frame body.2, deserialize, hread]
  refine ⟨frame body.1 ++ bytes, writeAll_cons hw hwrite, yields_cons (hmsg bytes) hyields,
    fun cut hpre hcut => ?_⟩
  -- a cut after the frame is a cut in what follows it
  have hlater : ∀ rest, cut = frame body.1 ++ rest → rest <+: bytes →
      ∃ k < (message :: messages).length, ∃ whole more,
        writeAll serde ((message :: messages).take k) = .ok whole ∧
        writeAll serde ((message :: messages).take (k + 1)) = .ok more ∧ whole <+: cut ∧
        ¬ more <+: cut ∧
        if cut = whole then Yields serde cut (received ((message :: messages).take k))
        else ∃ e, Yields serde cut (received ((message :: messages).take k) ++ [.error e]) := by
    rintro rest rfl hrest
    obtain ⟨k, hk, whole, more, hwhole, hmore, hin, hout, hy⟩ :=
      hcuts rest hrest fun e => hcut (by rw [e])
    refine ⟨k + 1, Nat.succ_lt_succ hk, frame body.1 ++ whole, frame body.1 ++ more,
      writeAll_cons hw hwhole, writeAll_cons hw hmore, (List.prefix_append_right_inj _).mpr hin,
      fun hp => hout ((List.prefix_append_right_inj _).mp hp), ?_⟩
    by_cases e : rest = whole
    · rw [if_pos e] at hy
      rw [if_pos (by rw [e])]
      exact yields_cons (hmsg rest) hy
    · rw [if_neg e] at hy
      rw [if_neg fun he => e (List.append_cancel_left he)]
      obtain ⟨error, hy⟩ := hy
      exact ⟨error, yields_cons (hmsg rest) hy⟩
  by_cases hfirst : cut = frame body.1
  · exact hlater [] (by rw [hfirst, List.append_nil]) List.nil_prefix
  rcases prefix_append_cases hpre with hin | ⟨rest, he, hrest⟩
  · -- a cut within the frame: nothing comes before it
    have hmore : writeAll serde ((message :: messages).take 1) = .ok (frame body.1) := by
      have h1 : writeAll serde [message] = .ok (frame body.1 ++ []) := writeAll_cons hw rfl
      rwa [List.append_nil] at h1
    refine ⟨0, Nat.succ_pos _, [], frame body.1, rfl, hmore, List.nil_prefix, fun hp => ?_, ?_⟩
    · exact hfirst (hin.eq_of_length (le_antisymm hin.length_le hp.length_le))
    · by_cases e : cut = []
      · rw [if_pos e, e]
        exact yields_nil
      · rw [if_neg e]
        obtain ⟨error, hcall⟩ : ∃ error, readMessage serde cut = .ready (.error error) [] :=
          cut_frame body.2 hne hin hfirst e
        exact ⟨error, yields_cons hcall yields_nil⟩
  · exact hlater rest he hrest

/-- **Framing recovers what was written**, whatever the bodies hold and wherever it is cut. -/
theorem framing_recovers (messages : List Message)
    (hserde : ∀ message ∈ messages, message.NoSomeNull → RoundTrips serde message)
    (hnull : ∀ message ∈ messages, message.NoSomeNull) : Recovers serde messages := by
  induction messages with
  | nil => exact recovers_nil
  | cons message messages ih =>
    refine recovers_cons (hserde message List.mem_cons_self (hnull message List.mem_cons_self)) ?_
    exact ih (fun m hm => hserde m (List.mem_cons_of_mem _ hm))
      (fun m hm => hnull m (List.mem_cons_of_mem _ hm))

/-- A message, and its JSON text. -/
def stopped : Message := .event { seq := 1, event := "stopped", body := none }

def stoppedText : Vec :=
  ⟨Utf8.encode "\x7b\"type\":\"event\",\"seq\":1,\"event\":\"stopped\"\x7d".toList, by decide⟩

/-- `serde_json` on that message and that text. -/
def stoppedSerde : Serde where
  toVec _ := some stoppedText
  fromSlice bytes := if bytes = stoppedText.1 then some stopped else none

lemma roundTrips_stopped : RoundTrips stoppedSerde stopped :=
  ⟨stoppedText, rfl, by decide, by simp [stoppedSerde]⟩

theorem framing_recovers_stopped : Recovers stoppedSerde [stopped, stopped] := by
  have hall : ∀ m ∈ [stopped, stopped], m = stopped := by simp
  refine framing_recovers [stopped, stopped] (fun m hm _ => ?_) (fun m hm => ?_)
  · rw [hall m hm]
    exact roundTrips_stopped
  · rw [hall m hm]
    simp [stopped, Message.NoSomeNull]

end DappyCore.Framing
