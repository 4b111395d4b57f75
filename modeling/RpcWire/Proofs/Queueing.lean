import RpcWire.Proofs.Unread

/-! A channel on a stream in memory is a queue of octets: whatever is done with it, and in however small pieces the
stream delivers, it answers as the record of what was done before tells. Octets wait in the order in which they were
supplied, a read takes so many of them or fails and takes none, and what is sent is what was written by the flush. -/
namespace RpcWire.Channel

inductive Act where
  | peek (n : Nat)
  | read (n : Nat)
  | readByte
  | startCapture
  | stopCapture
  | push (bytes : Bytes)
  | write (bytes : Bytes)
  | writeByte (byte : UInt8)
  | discard
  | flush
  deriving DecidableEq

def push (bytes : Bytes) (channel : Channel) : Channel :=
  { channel with transport := channel.transport.withStream (channel.transport.stream.push bytes) }

/-- Does it, and gives the octets that come of it, if any do. -/
def Act.run : Act → ChannelM Bytes
  | .peek n => Channel.peek n
  | .read n => Channel.read n
  | .readByte => do return [← Channel.readByte]
  | .startCapture => do
    modify Channel.startCapture
    return []
  | .stopCapture => do
    let bytes := (← get).capture
    modify Channel.stopCapture
    return bytes
  | .push bytes => do
    modify (Channel.push bytes)
    return []
  | .write bytes => do
    Channel.write bytes
    return []
  | .writeByte byte => do
    Channel.writeByte byte
    return []
  | .discard => do
    modify Channel.discardPending
    return []
  | .flush => do
    Channel.flush
    return []

def Act.wants : Act → Option Nat
  | .peek n => some n
  | .read n => some n
  | .readByte => some 1
  | _ => none

structure Entry where
  act : Act
  answer : Except WireError Bytes

/-- One act more. A failure does not end the run. -/
def perform (act : Act) : List Entry × Channel → List Entry × Channel
  | (past, channel) =>
    match act.run channel with
    | .ok bytes after => (⟨act, .ok bytes⟩ :: past, after)
    | .error err after => (⟨act, .error err⟩ :: past, after)

/-- Acts one after the other, with a record of them. The last entry comes first. -/
def performAll (acts : List Act) (channel : Channel) : List Entry × Channel :=
  acts.foldl (fun state act => perform act state) ([], channel)

/-! ## What the record tells -/

def supplied : List Entry → Bytes
  | [] => []
  | ⟨.push bytes, _⟩ :: past => supplied past ++ bytes
  | _ :: past => supplied past

def Entry.taken : Entry → Bytes
  | ⟨.read _, .ok bytes⟩ => bytes
  | ⟨.readByte, .ok bytes⟩ => bytes
  | _ => []

def consumed : List Entry → Bytes
  | [] => []
  | entry :: past => consumed past ++ entry.taken

def waiting (input : Bytes) (past : List Entry) : Bytes :=
  (input ++ supplied past).drop (consumed past).length

/-- The octets that were consumed since the capture that runs began, if one runs. -/
def capturing : List Entry → Option Bytes
  | [] => none
  | ⟨.startCapture, _⟩ :: _ => some []
  | ⟨.stopCapture, _⟩ :: _ => none
  | entry :: past => (capturing past).map (· ++ entry.taken)

def gathered : List Entry → Bytes
  | [] => []
  | ⟨.write bytes, _⟩ :: past => gathered past ++ bytes
  | ⟨.writeByte byte, _⟩ :: past => gathered past ++ [byte]
  | ⟨.discard, _⟩ :: _ => []
  | ⟨.flush, _⟩ :: _ => []
  | _ :: past => gathered past

def sent : List Entry → Bytes
  | [] => []
  | ⟨.flush, _⟩ :: past => sent past ++ gathered past
  | _ :: past => sent past

/-- The first `n` octets of a queue, if so many wait in it. -/
def front (n : Nat) (queue : Bytes) : Except WireError Bytes :=
  if n ≤ queue.length then .ok (queue.take n) else .error .streamClosed

def answer (input : Bytes) (past : List Entry) : Act → Except WireError Bytes
  | .peek n => front n (waiting input past)
  | .read n => front n (waiting input past)
  | .readByte => front 1 (waiting input past)
  | .stopCapture => .ok ((capturing past).getD [])
  | _ => .ok []

def AnswersAsQueue (input : Bytes) : List Entry → Prop
  | [] => True
  | entry :: past => entry.answer = answer input past entry.act ∧ AnswersAsQueue input past

structure Tells (input : Bytes) (chunk : Option Nat) (past : List Entry) (channel : Channel) : Prop where
  transport : ∃ unread, channel.transport = .raw { unread, written := sent past, chunk }
  unread : input ++ supplied past = consumed past ++ channel.unread
  captured : channel.captured = capturing past
  pending : channel.pending = gathered past

variable {input : Bytes} {chunk : Option Nat} {past : List Entry} {channel : Channel}

private theorem unread_push {stream : Stream} (h : channel.transport = .raw stream) (bytes : Bytes) :
    (channel.push bytes).unread = channel.unread ++ bytes := by
  have hpush : (channel.push bytes).transport = .raw (stream.push bytes) := by
    rw [push, h]
    rfl
  rw [unread_raw hpush, unread_raw h, List.append_assoc]
  rfl

private theorem Tells.refl (input : Bytes) (chunk : Option Nat) :
    Tells input chunk [] { transport := .raw { unread := input, chunk } } :=
  ⟨⟨input, rfl⟩,
    (List.append_nil input).trans (@unread_raw { transport := .raw { unread := input, chunk } } _ rfl).symm, rfl, rfl⟩

private theorem Tells.captured_append_nil (h : Tells input chunk past channel) :
    channel.captured = (capturing past).map (· ++ []) := by
  rw [h.captured]
  cases capturing past <;> simp

private theorem Tells.waiting_eq (h : Tells input chunk past channel) :
    waiting input past = channel.unread := by
  rw [waiting, h.unread, List.drop_left]

/-! ## Reading -/

/-- Over a stream without failures, reading ahead fails only where too few octets are left, and moves octets from the
stream to those read ahead. -/
theorem fill_raw (n : Nat) {channel : Channel} {unread written : Bytes} {chunk : Option Nat}
    (h : channel.transport = .raw { unread, written, chunk }) : ∃ readAhead rest,
    let filled := { channel with transport := .raw { unread := rest, written, chunk }, readAhead }
    channel.readAhead ++ unread = readAhead ++ rest ∧
      (n ≤ readAhead.length ∧ fill n channel = .ok () filled ∨
        (channel.readAhead ++ unread).length < n ∧ fill n channel = .error .streamClosed filled) := by
  fun_induction fill n channel generalizing unread with
  | case1 channel hle =>
    refine ⟨channel.readAhead, unread, rfl, .inl ⟨hle, ?_⟩⟩
    rw [← h]
  | case2 channel hle err after hread =>
    rw [h] at hread
    cases unread <;> simp [Transport.read, Transport.dispatch, onPart, Stream.read] at hread
  | case3 channel hle after hread =>
    rw [h] at hread
    simp only [Transport.read, Transport.dispatch, onPart] at hread
    cases unread with
    | nil =>
      rw [Stream.read_nil _ rfl] at hread
      cases hread
      refine ⟨channel.readAhead, [], rfl, .inr ⟨?_, rfl⟩⟩
      rw [List.append_nil]
      exact Nat.lt_of_not_le hle
    | cons first rest =>
      obtain ⟨more, -, hmore⟩ := @Stream.read_cons readSize (by decide) { unread := first :: rest, written, chunk }
        first rest rfl
      rw [hmore] at hread
      cases hread
  | case4 channel hle first more after hread ih =>
    rw [h] at hread
    simp only [Transport.read, Transport.dispatch, onPart] at hread
    cases unread with
    | nil =>
      rw [Stream.read_nil _ rfl] at hread
      cases hread
    | cons head rest =>
      obtain ⟨size, -, hmore⟩ := @Stream.read_cons readSize (by decide) { unread := head :: rest, written, chunk }
        head rest rfl
      rw [hmore] at hread
      cases hread
      obtain ⟨readAhead, left, hsame, hends⟩ := ih rfl
      have hall : channel.readAhead ++ first :: rest =
          channel.readAhead ++ first :: rest.take size ++ rest.drop size := by
        rw [List.append_assoc, List.cons_append, List.take_append_drop]
      rw [hall]
      exact ⟨readAhead, left, hsame, hends⟩

/-- Reading ahead gets what a queue would give, or fails where it would, and changes nothing that the record tells. -/
theorem Tells.fill (h : Tells input chunk past channel) (n : Nat) : ∃ filled, Tells input chunk past filled ∧
    (Channel.fill n channel = .ok () filled ∧ n ≤ filled.readAhead.length ∧
        front n (waiting input past) = .ok (filled.readAhead.take n) ∨
      Channel.fill n channel = .error .streamClosed filled ∧
        front n (waiting input past) = .error .streamClosed) := by
  obtain ⟨unread, htransport⟩ := h.transport
  obtain ⟨readAhead, rest, hsame, hends⟩ := fill_raw n htransport
  have hwaiting : waiting input past = readAhead ++ rest := by
    rw [h.waiting_eq, unread_raw htransport]
    exact hsame
  let filled : Channel := { channel with transport := .raw { unread := rest, written := sent past, chunk }, readAhead }
  have hunread : filled.unread = readAhead ++ rest := @unread_raw filled _ rfl
  refine ⟨filled, ⟨⟨rest, rfl⟩, ?_, h.captured, h.pending⟩, hends.imp ?_ ?_⟩
  · rw [h.unread, ← h.waiting_eq, hwaiting, hunread]
  · rintro ⟨hle, hfill⟩
    refine ⟨hfill, hle, ?_⟩
    rw [front, hwaiting, if_pos (by rw [List.length_append]; omega), List.take_append_of_le_length hle]
  · rintro ⟨hlt, hfill⟩
    rw [hsame] at hlt
    exact ⟨hfill, by rw [front, hwaiting, if_neg (Nat.not_le.mpr hlt)]⟩

/-- What looks for octets and takes none tells nothing of the channel. -/
theorem Tells.look {entry : Entry} (h : Tells input chunk past channel) (hwants : entry.act.wants ≠ none)
    (htaken : entry.taken = []) : Tells input chunk (entry :: past) channel := by
  obtain ⟨act, answer⟩ := entry
  have hcaptured := h.captured_append_nil
  cases act with
  | peek n | read n | readByte =>
    refine ⟨h.transport, ?_, ?_, h.pending⟩
    · simpa only [supplied, consumed, htaken, List.append_nil] using h.unread
    · simpa only [capturing, htaken] using hcaptured
  | _ => exact absurd rfl hwants

/-- A read that succeeds takes the octets that it gives. -/
theorem Tells.consume {n : Nat} {entry : Entry} (h : Tells input chunk past channel)
    (htaken : entry.taken = channel.readAhead.take n) (hact : entry.act = .read n ∨ entry.act = .readByte) :
    Tells input chunk (entry :: past) { channel with
      readAhead := channel.readAhead.drop n
      captured := channel.captured.map (· ++ channel.readAhead.take n) } := by
  obtain ⟨act, answer⟩ := entry
  obtain ⟨unread, htransport⟩ := h.transport
  have hunread : input ++ supplied past = consumed past ++ channel.readAhead.take n ++
      ({ channel with
        readAhead := channel.readAhead.drop n
        captured := channel.captured.map (· ++ channel.readAhead.take n) } : Channel).unread := by
    rw [h.unread, Channel.unread, Channel.unread, List.append_assoc, ← List.append_assoc (channel.readAhead.take n),
      List.take_append_drop]
  have hcaptured := congrArg (Option.map (· ++ channel.readAhead.take n)) h.captured
  rcases hact with rfl | rfl
  · exact ⟨⟨unread, htransport⟩, by simpa only [supplied, consumed, htaken] using hunread,
      by simpa only [capturing, htaken] using hcaptured, h.pending⟩
  · exact ⟨⟨unread, htransport⟩, by simpa only [supplied, consumed, htaken] using hunread,
      by simpa only [capturing, htaken] using hcaptured, h.pending⟩

private theorem perform_ok {act : Act} {bytes : Bytes} {after : Channel}
    (h : act.run channel = .ok bytes after) :
    perform act (past, channel) = (⟨act, .ok bytes⟩ :: past, after) := by
  simp only [perform, h]

private theorem perform_error {act : Act} {err : WireError} {after : Channel}
    (h : act.run channel = .error err after) :
    perform act (past, channel) = (⟨act, .error err⟩ :: past, after) := by
  simp only [perform, h]

/-- Over a stream that takes everything, a flush sends what is pending. -/
theorem flush_raw {stream : Stream} (h : channel.transport = .raw stream) (hlimit : stream.limit = none) :
    Channel.flush channel = .ok () { channel with
      transport := .raw { stream with written := stream.written ++ channel.pending }, pending := [] } := by
  obtain ⟨transport, readAhead, pending, captured⟩ := channel
  obtain ⟨unread, written, chunk, ending, limit⟩ := stream
  obtain rfl : transport = .raw ⟨unread, written, chunk, ending, limit⟩ := h
  obtain rfl : limit = none := hlimit
  rw [Channel.flush, bind_of_ok (get_ok _)]
  by_cases hpending : pending = []
  · subst hpending
    simp [onTransport, onPart, Transport.flush, Transport.dispatch, pure, EStateM.pure]
  · simp [hpending, bind, EStateM.bind, modify_ok, onTransport, onPart, Transport.write, Transport.flush,
      Transport.dispatch, Stream.write, pure, EStateM.pure]

/-- One act more is answered as a queue does, and keeps channel and record together. -/
theorem Tells.perform (h : Tells input chunk past channel) (act : Act) : ∃ after,
    Channel.perform act (past, channel) = (⟨act, answer input past act⟩ :: past, after) ∧
      Tells input chunk (⟨act, answer input past act⟩ :: past) after := by
  obtain ⟨unread, htransport⟩ := h.transport
  -- Most acts take nothing.
  have hunread : input ++ supplied past = consumed past ++ [] ++ channel.unread := by
    rw [List.append_nil, h.unread]
  have hcaptured := h.captured_append_nil
  cases act with
  | peek n =>
    obtain ⟨filled, hfilled, ⟨hfill, -, hfront⟩ | ⟨hfill, hfront⟩⟩ := h.fill n
    · rw [answer, hfront]
      exact ⟨filled, perform_ok (bind_of_ok hfill), hfilled.look nofun rfl⟩
    · rw [answer, hfront]
      exact ⟨filled, perform_error (bind_of_error hfill), hfilled.look nofun rfl⟩
  | read n =>
    obtain ⟨filled, hfilled, ⟨hfill, -, hfront⟩ | ⟨hfill, hfront⟩⟩ := h.fill n
    · rw [answer, hfront]
      exact ⟨_, perform_ok (bind_of_ok hfill), hfilled.consume rfl (.inl rfl)⟩
    · rw [answer, hfront]
      exact ⟨filled, perform_error (bind_of_error hfill), hfilled.look nofun rfl⟩
  | readByte =>
    obtain ⟨filled, hfilled, ⟨hfill, hlen, hfront⟩ | ⟨hfill, hfront⟩⟩ := h.fill 1
    · rw [answer, hfront]
      have hone : [(filled.readAhead.take 1).headD 0] = filled.readAhead.take 1 := by
        obtain ⟨first, rest, hahead⟩ := List.exists_cons_of_length_pos hlen
        rw [hahead]
        rfl
      have hread : Channel.read 1 channel = .ok (filled.readAhead.take 1) { filled with
          readAhead := filled.readAhead.drop 1
          captured := filled.captured.map (· ++ filled.readAhead.take 1) } := bind_of_ok hfill
      have hrun : Act.readByte.run channel = .ok [(filled.readAhead.take 1).headD 0] _ :=
        bind_of_ok (bind_of_ok hread)
      rw [hone] at hrun
      exact ⟨_, perform_ok hrun, hfilled.consume rfl (.inr rfl)⟩
    · rw [answer, hfront]
      exact ⟨filled, perform_error (bind_of_error (bind_of_error (bind_of_error hfill))), hfilled.look nofun rfl⟩
  | startCapture => exact ⟨_, perform_ok rfl, h.transport, hunread, rfl, h.pending⟩
  | stopCapture =>
    rw [answer, ← h.captured]
    exact ⟨_, perform_ok rfl, h.transport, hunread, rfl, h.pending⟩
  | push bytes =>
    refine ⟨_, perform_ok rfl, ⟨unread ++ bytes, ?_⟩, ?_, hcaptured, h.pending⟩
    · rw [Channel.push, htransport]
      rfl
    · rw [unread_push htransport]
      simpa only [supplied, consumed, Entry.taken, List.append_assoc] using congrArg (· ++ bytes) hunread
  | write bytes => exact ⟨_, perform_ok rfl, h.transport, hunread, hcaptured, congrArg (· ++ bytes) h.pending⟩
  | writeByte byte => exact ⟨_, perform_ok rfl, h.transport, hunread, hcaptured, congrArg (· ++ [byte]) h.pending⟩
  | discard => exact ⟨_, perform_ok rfl, h.transport, hunread, hcaptured, rfl⟩
  | flush =>
    have hflush := flush_raw htransport rfl
    refine ⟨_, perform_ok (bind_of_ok hflush), ⟨unread, ?_⟩, ?_, hcaptured, rfl⟩
    · rw [h.pending]
      rfl
    · have hsame := @unread_raw { channel with
        transport := .raw { unread, written := sent past ++ channel.pending, chunk }, pending := [] } _ rfl
      rw [unread_raw htransport] at hunread
      rw [hsame]
      exact hunread

/-- Channel and record stay together through all acts. -/
theorem tells_performAll (input : Bytes) (chunk : Option Nat) (acts : List Act) :
    let run := performAll acts { transport := .raw { unread := input, chunk } }
    Tells input chunk run.1 run.2 ∧ AnswersAsQueue input run.1 ∧ run.1.map Entry.act = acts.reverse := by
  induction acts using List.reverseRecOn with
  | nil => exact ⟨.refl input chunk, trivial, rfl⟩
  | append_singleton acts act ih =>
    obtain ⟨htells, hanswers, hacts⟩ := ih
    obtain ⟨after, hperform, hafter⟩ := htells.perform act
    have hrun : performAll (acts ++ [act]) { transport := .raw { unread := input, chunk } } = (_, after) :=
      (List.foldl_append ..).trans hperform
    rw [hrun]
    exact ⟨hafter, ⟨rfl, hanswers⟩, by rw [List.map_cons, hacts, List.reverse_append]; rfl⟩

/-- With enough octets read ahead, the stream is not asked for any. -/
theorem run_buffered {act : Act} {n : Nat} (hwants : act.wants = some n) (h : n ≤ channel.readAhead.length) :
    ∃ after : Channel, ∀ transport,
      act.run { channel with transport } = .ok (channel.readAhead.take n) { after with transport } := by
  have hfill (transport : Transport) :
      Channel.fill n { channel with transport } = .ok () { channel with transport } := by
    rw [Channel.fill, if_pos h]
  let consumed : Channel := { channel with
    readAhead := channel.readAhead.drop n, captured := channel.captured.map (· ++ channel.readAhead.take n) }
  have hread (transport : Transport) : Channel.read n { channel with transport } =
      .ok (channel.readAhead.take n) { consumed with transport } := bind_of_ok (hfill transport)
  cases act with
  | peek m =>
    cases hwants
    exact ⟨channel, fun transport => bind_of_ok (hfill transport)⟩
  | read m =>
    cases hwants
    exact ⟨consumed, hread⟩
  | readByte =>
    cases hwants
    obtain ⟨first, rest, hahead⟩ := List.exists_cons_of_length_pos h
    refine ⟨consumed, fun transport => ?_⟩
    have hone : channel.readAhead.take 1 = [(channel.readAhead.take 1).headD 0] := by
      rw [hahead]
      rfl
    rw [hone]
    exact bind_of_ok (bind_of_ok (hread transport))
  | _ => cases hwants

private theorem Tells.read_ok {n : Nat} (h : Tells input chunk past channel) (hn : n ≤ channel.unread.length) :
    ∃ last, Channel.read n channel = .ok (channel.unread.take n) last := by
  obtain ⟨filled, -, ⟨hfill, -, hfront⟩ | ⟨-, hfront⟩⟩ := h.fill n
  · rw [h.waiting_eq, front, if_pos hn] at hfront
    rw [Except.ok.inj hfront]
    exact ⟨_, bind_of_ok hfill⟩
  · rw [h.waiting_eq, front, if_pos hn] at hfront
    cases hfront

/-- A read fails only where too few octets are left. It leaves them, and succeeds once enough have arrived. -/
theorem Tells.read_again {n : Nat} {err : WireError} {after : Channel} (h : Tells input chunk past channel)
    (hread : Channel.read n channel = .error err after) :
    err = .streamClosed ∧ channel.unread.length < n ∧ after.unread = channel.unread ∧
      after.captured = channel.captured ∧ ∀ more : Bytes, n ≤ channel.unread.length + more.length →
        ∃ last, Channel.read n (after.push more) = .ok ((channel.unread ++ more).take n) last := by
  have hperform : Channel.perform (.read n) (past, channel) = (⟨.read n, .error err⟩ :: past, after) :=
    perform_error hread
  obtain ⟨after', hanswer, hafter⟩ := h.perform (.read n)
  rw [hperform] at hanswer
  obtain ⟨hentry, rfl⟩ := Prod.mk.inj hanswer
  have hfront : front n channel.unread = .error err := by
    rw [← h.waiting_eq]
    exact (congrArg Entry.answer (List.cons.inj hentry).1).symm
  have hshort : channel.unread.length < n ∧ err = .streamClosed := by
    unfold front at hfront
    split at hfront
    · cases hfront
    · next hlen =>
      cases hfront
      exact ⟨Nat.lt_of_not_le hlen, rfl⟩
  have hconsumes : channel.Consumes [] after := by
    rcases read_consumes n channel with ⟨bytes, last, hok, -⟩ | ⟨err', last, herror, hconsumes⟩
    · rw [hread] at hok
      cases hok
    · rw [hread] at herror
      cases herror
      exact hconsumes
  refine ⟨hshort.2, hshort.1, hconsumes.unread.symm, hconsumes.captured.trans (by cases channel.captured <;> simp),
    fun more hmore => ?_⟩
  obtain ⟨stream, htransport⟩ := hafter.transport
  obtain ⟨pushed, hpush, hpushed⟩ := hafter.perform (.push more)
  obtain rfl : after.push more = pushed := congrArg Prod.snd hpush
  have hall : (after.push more).unread = channel.unread ++ more := by
    rw [unread_push htransport, hconsumes.unread, List.nil_append]
  rw [← hall]
  exact hpushed.read_ok (by rw [hall, List.length_append]; exact hmore)

/-- Whatever is done with a channel over a stream in memory, everything is answered as a queue does: a read of any size
gives the next octets if so many have arrived, and otherwise fails and takes none, also not into a capture, so that it
succeeds once they have arrived; to look at octets takes none; the stream is not asked for octets that are read ahead; a
capture has the octets consumed since it began; and the stream was given what was written before each flush and not
discarded, once and in order. -/
theorem performAll_queues (input : Bytes) (chunk : Option Nat) (acts : List Act) :
    let run := performAll acts { transport := .raw { unread := input, chunk } }
    run.1.map Entry.act = acts.reverse ∧ AnswersAsQueue input run.1 ∧
    input ++ supplied run.1 = consumed run.1 ++ run.2.unread ∧
    run.2.captured = capturing run.1 ∧
    run.2.pending = gathered run.1 ∧
    run.2.transport.stream.written = sent run.1 ∧
    (∀ (act : Act) n, act.wants = some n → n ≤ run.2.readAhead.length → ∃ after : Channel, ∀ transport,
      act.run { run.2 with transport } = .ok (run.2.readAhead.take n) { after with transport }) ∧
    ∀ n err after, Channel.read n run.2 = .error err after →
      err = .streamClosed ∧ run.2.unread.length < n ∧ after.unread = run.2.unread ∧
      after.captured = run.2.captured ∧ ∀ more : Bytes, n ≤ run.2.unread.length + more.length →
        ∃ last, Channel.read n (after.push more) = .ok ((run.2.unread ++ more).take n) last := by
  obtain ⟨htells, hanswers, hacts⟩ := tells_performAll input chunk acts
  obtain ⟨unread, htransport⟩ := htells.transport
  refine ⟨hacts, hanswers, htells.unread, htells.captured, htells.pending, ?_, fun _ _ => run_buffered,
    fun _ _ _ => htells.read_again⟩
  rw [htransport]
  rfl

/-- Three octets are too few for a read of four, and what is captured comes of the second one alone. -/
example :
    let run := performAll [.startCapture, .peek 2, .read 4, .push [4, 5], .read 4, .write [6], .flush, .writeByte 7]
      { transport := .raw { unread := [1, 2, 3], chunk := some 2 } }
    run.2.captured = some [1, 2, 3, 4] ∧ run.2.readAhead = [5] ∧ run.2.pending = [7] ∧
      run.2.transport.stream.written = [6] := by
  decide +kernel

end RpcWire.Channel
