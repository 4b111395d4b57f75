import RpcWire.Proofs.Wrapping

/-! The octets of a channel one by one. What reading ahead gets is what comes octet by octet, so channels deliver alike
as soon as their transports give alike the next octet. -/
namespace RpcWire

namespace Stream

/-- With nothing left, a read of any size meets the end. -/
theorem read_nil (n : Nat) {stream : Stream} (h : stream.unread = []) :
    read n stream = match stream.ending with
      | none => .ok [] stream
      | some err => .error (.io err) stream := by
  obtain ⟨unread, written, chunk, ending, limit⟩ := stream
  obtain rfl : unread = [] := h
  cases ending with
  | none => simp [read]
  | some err => rfl

/-- With octets left, a read of any size takes the first of them, and how many more does not matter. -/
theorem read_cons {n : Nat} (hn : 0 < n) {stream : Stream} {first : UInt8} {rest : Bytes}
    (h : stream.unread = first :: rest) :
    ∃ more < n, read n stream = .ok (first :: rest.take more) { stream with unread := rest.drop more } := by
  obtain ⟨size, hsize, hle⟩ : ∃ size, stream.readSize n = size + 1 ∧ size < n := by
    refine ⟨stream.readSize n - 1, ?_, ?_⟩ <;> (unfold readSize; split <;> omega)
  refine ⟨size, hle, ?_⟩
  obtain ⟨unread, written, chunk, ending, limit⟩ := stream
  obtain rfl : unread = first :: rest := h
  simp only [read, hsize, List.take_succ_cons, List.drop_succ_cons]

private theorem read_one (stream : Stream) (first : UInt8) (rest : Bytes) :
    read 1 { stream with unread := first :: rest } = .ok [first] { stream with unread := rest } := by
  obtain ⟨more, hmore, hread⟩ := @read_cons 1 (by decide) { stream with unread := first :: rest } first rest rfl
  obtain rfl : more = 0 := Nat.lt_one_iff.mp hmore
  exact hread

/-- Where fewer octets are left than are asked for, all of them come, or none and the failure behind them. -/
theorem readFull_short {n : Nat} {stream : Stream} (h : stream.unread.length < n) :
    readFull n stream = match stream.ending with
      | none => .ok stream.unread { stream with unread := [] }
      | some err => .error (.io err) { stream with unread := [] } := by
  induction n using Nat.strongRecOn generalizing stream with
  | ind n ih =>
    rw [readFull, if_neg (Nat.ne_of_gt (Nat.zero_lt_of_lt h))]
    cases hunread : stream.unread with
    | nil =>
      have hsame : { stream with unread := [] } = stream := by rw [← hunread]
      rw [read_nil n hunread, hsame]
      cases stream.ending with
      | none => rfl
      | some err => rfl
    | cons first rest =>
      obtain ⟨more, -, hread⟩ := read_cons (Nat.zero_lt_of_lt h) hunread
      have hless : (rest.drop more).length < n - (first :: rest.take more).length := by
        rw [hunread] at h
        simp only [List.length_cons, List.length_take, List.length_drop] at h ⊢
        omega
      rw [hread]
      dsimp only
      rw [@ih _ (by simp; omega) { stream with unread := rest.drop more } hless]
      cases stream.ending with
      | none => simp only [List.cons_append, List.take_append_drop]
      | some err => rfl

end Stream

namespace Framed

theorem await_eq (layer : Framed) :
    await layer = if layer.remaining ≠ 0 then .ok true layer else
      match Stream.readLength layer.stream with
      | .error err stream => .error err { layer with stream }
      | .ok none stream => .ok false { layer with stream }
      | .ok (some length) stream =>
        if layer.maxSize < length then .error (.framing (.tooLarge length.toNat layer.maxSize)) { layer with stream }
        else await { layer with stream, remaining := length.toNat } := by
  conv => lhs; rw [await]
  split
  · rfl
  · split
    · next he => rw [he]
    · next he => rw [he]
    · next he => rw [he]

/-- Only a frame with octets left is entered. -/
theorem remaining_of_await {layer entered : Framed} (h : await layer = .ok true entered) : entered.remaining ≠ 0 := by
  fun_induction await layer with
  | case1 layer hmore =>
    cases h
    exact hmore
  | case5 layer hnone length stream hread hfit ih => exact ih h
  | _ => cases h

/-- A read enters a frame and takes octets of it. -/
theorem read_eq {n : Nat} (hn : 0 < n) (layer : Framed) :
    read n layer = match await layer with
      | .error err entered => .error err entered
      | .ok false entered => .ok [] entered
      | .ok true entered =>
        match Stream.read (min n entered.remaining) entered.stream with
        | .error err stream => .error err { entered with stream }
        | .ok [] stream => .error .closedInFrame { entered with stream }
        | .ok (first :: rest) stream =>
          .ok (first :: rest) { entered with stream, remaining := entered.remaining - (first :: rest).length } := by
  rw [read, if_neg (Nat.ne_of_gt hn)]
  cases hawait : await layer with
  | error err entered => exact bind_of_error hawait
  | ok more entered =>
    rw [bind_of_ok hawait]
    cases more with
    | false => rfl
    | true =>
      refine (bind_of_ok (get_ok entered)).trans ?_
      cases hread : Stream.read (min n entered.remaining) entered.stream with
      | error err stream =>
        simp only [hread]
        exact bind_of_error (onPart_error hread)
      | ok got stream =>
        simp only [hread]
        refine (bind_of_ok (onPart_ok hread)).trans ?_
        cases got with
        | nil => rfl
        | cons first rest => rfl

theorem await_inside {layer : Framed} (h : layer.remaining ≠ 0) : await layer = .ok true layer := by
  rw [await, if_pos h]

end Framed

namespace Enveloped

theorem await_eq (layer : Enveloped) :
    await layer = if layer.payload ≠ [] then .ok true layer else
      match Stream.readLength layer.stream with
      | .error err stream => .error err { layer with stream }
      | .ok none stream => .ok false { layer with stream }
      | .ok (some length) stream =>
        match load length { layer with stream } with
        | .error err layer => .error err layer
        | .ok () layer => await layer := by
  conv => lhs; rw [await]
  split
  · rfl
  · split
    · next he => rw [he]
    · next he => rw [he]
    · next he =>
      rw [he]
      dsimp only
      split
      · next he => rw [he]
      · next he => rw [he]

/-- Between envelopes, the length of the next one is read, and then it is loaded. -/
theorem await_between {layer : Enveloped} (h : layer.payload = []) :
    await layer = match Stream.readLength layer.stream with
      | .error err stream => .error err { layer with stream }
      | .ok none stream => .ok false { layer with stream }
      | .ok (some length) stream => (load length >>= fun _ => await) { layer with stream } := by
  rw [await_eq, if_neg (not_not_intro h)]
  cases Stream.readLength layer.stream with
  | error err stream => rfl
  | ok length? stream =>
    cases length? with
    | none => rfl
    | some length =>
      dsimp only
      cases hload : load length { layer with stream } with
      | error err after => rw [bind_of_error hload]
      | ok _ after => rw [bind_of_ok hload]

/-- Only an envelope with octets left is entered. -/
theorem payload_of_await {layer entered : Enveloped} (h : await layer = .ok true entered) : entered.payload ≠ [] := by
  fun_induction await layer with
  | case1 layer hmore =>
    cases h
    exact hmore
  | case5 layer hnone length stream hread env hload ih => exact ih h
  | _ => cases h

/-- A read enters an envelope and takes octets of it. -/
theorem read_eq {n : Nat} (hn : 0 < n) (layer : Enveloped) :
    read n layer = match await layer with
      | .error err entered => .error err entered
      | .ok false entered => .ok [] entered
      | .ok true entered => .ok (entered.payload.take n) { entered with payload := entered.payload.drop n } := by
  rw [read, if_neg (Nat.ne_of_gt hn)]
  cases hawait : await layer with
  | error err entered => exact bind_of_error hawait
  | ok more entered =>
    rw [bind_of_ok hawait]
    cases more with
    | false => rfl
    | true => rfl

theorem await_inside {layer : Enveloped} (h : layer.payload ≠ []) : await layer = .ok true layer := by
  rw [await, if_pos h]

end Enveloped

namespace Transport

def pull : TransportM UInt8 := do
  match ← read 1 with
  | [] => throw .streamClosed
  | first :: _ => return first

theorem pull_eq (transport : Transport) :
    pull transport = match read 1 transport with
      | .error err after => .error err after
      | .ok [] after => .error .streamClosed after
      | .ok (first :: _) after => .ok first after := by
  rw [pull]
  cases hread : read 1 transport with
  | error err after => exact bind_of_error hread
  | ok got after =>
    rw [bind_of_ok hread]
    cases got with
    | nil => rfl
    | cons first rest => rfl

/-- An octet that was put back is the next one. -/
theorem pull_putBack (first : UInt8) (rest : Bytes) (transport : Transport) :
    pull (transport.putBack (first :: rest)) = .ok first (transport.putBack rest) := by
  suffices h : read 1 (transport.putBack (first :: rest)) = .ok [first] (transport.putBack rest) by
    rw [pull_eq, h]
  cases transport with
  | raw stream => simp only [putBack, List.cons_append, read, dispatch, onPart, Stream.read_one]
  | framed layer =>
    have hsize : min 1 (rest.length + 1 + layer.remaining) = 1 := by omega
    have hleft : rest.length + 1 + layer.remaining - 1 = rest.length + layer.remaining := by omega
    have hawait := @Framed.await_inside { layer with
      stream := { layer.stream with unread := first :: (rest ++ layer.stream.unread) }
      remaining := rest.length + 1 + layer.remaining } (by simp)
    simp only [putBack, List.cons_append, List.length_cons, read, dispatch, onPart, Framed.read_eq Nat.zero_lt_one,
      hawait, hsize, Stream.read_one, List.length_nil, Nat.zero_add, hleft]
  | header layer =>
    have hawait := @Enveloped.await_inside { layer with payload := first :: (rest ++ layer.payload) } (by simp)
    simp only [putBack, List.cons_append, read, dispatch, onPart, Enveloped.read_eq Nat.zero_lt_one, hawait,
      List.take_succ_cons, List.take_zero, List.drop_succ_cons, List.drop_zero]

/-- Whatever a read of some size meets, the next octet meets as well. -/
theorem pull_of_read {n : Nat} (hn : 0 < n) (transport : Transport) :
    pull transport = match read n transport with
      | .error err after => .error err after
      | .ok [] after => .error .streamClosed after
      | .ok (first :: rest) after => .ok first (after.putBack rest) := by
  rw [pull_eq]
  cases transport with
  | raw stream =>
    simp only [read, dispatch, onPart]
    cases hunread : stream.unread with
    | nil =>
      rw [Stream.read_nil 1 hunread, Stream.read_nil n hunread]
      cases stream.ending with
      | none => rfl
      | some err => rfl
    | cons first rest =>
      obtain ⟨more, -, hread⟩ := Stream.read_cons hn hunread
      obtain ⟨none, hnone, hone⟩ := Stream.read_cons Nat.zero_lt_one hunread
      obtain rfl : none = 0 := Nat.lt_one_iff.mp hnone
      rw [hread, hone]
      simp only [putBack, List.drop_zero, List.take_append_drop]
  | framed layer =>
    simp only [read, dispatch, onPart, Framed.read_eq hn, Framed.read_eq Nat.zero_lt_one]
    cases hawait : Framed.await layer with
    | error err entered => rfl
    | ok more entered =>
      cases more with
      | false => rfl
      | true =>
        have hmore := Framed.remaining_of_await hawait
        cases hunread : entered.stream.unread with
        | nil =>
          simp only [Stream.read_nil _ hunread]
          cases entered.stream.ending with
          | none => rfl
          | some err => rfl
        | cons first rest =>
          obtain ⟨more, hsize, hread⟩ := Stream.read_cons (by omega : 0 < min n entered.remaining) hunread
          obtain ⟨none, hnone, hone⟩ := Stream.read_cons (by omega : 0 < min 1 entered.remaining) hunread
          obtain rfl : none = 0 := by omega
          have hleft : (rest.take more).length + (entered.remaining - (first :: rest.take more).length) =
              entered.remaining - [first].length := by
            simp only [List.length_cons, List.length_take, List.length_nil]
            omega
          simp only [hread, hone, putBack, List.drop_zero, List.take_zero, List.take_append_drop, hleft]
  | header layer =>
    simp only [read, dispatch, onPart, Enveloped.read_eq hn, Enveloped.read_eq Nat.zero_lt_one]
    cases hawait : Enveloped.await layer with
    | error err entered => rfl
    | ok more entered =>
      cases more with
      | false => rfl
      | true =>
        obtain ⟨first, rest, hpayload⟩ := List.exists_cons_of_ne_nil (Enveloped.payload_of_await hawait)
        obtain ⟨less, rfl⟩ := Nat.exists_eq_add_one_of_ne_zero (Nat.ne_of_gt hn)
        simp only [hpayload, putBack, List.take_succ_cons, List.drop_succ_cons, List.take_zero, List.drop_zero,
          List.take_append_drop]

/-- Looks at the next octets and leaves them where they are. Those that come before a failure stay as well. -/
def ahead : Nat → TransportM Bytes
  | 0 => pure []
  | n + 1 => fun transport =>
    match pull transport with
    | .error err after => .error err after
    | .ok first after =>
      match ahead n after with
      | .error err after => .error err (after.putBack [first])
      | .ok rest after => .ok (first :: rest) (after.putBack [first])

theorem ahead_succ (n : Nat) (transport : Transport) :
    ahead (n + 1) transport = match pull transport with
      | .error err after => .error err after
      | .ok first after =>
        match ahead n after with
        | .error err after => .error err (after.putBack [first])
        | .ok rest after => .ok (first :: rest) (after.putBack [first]) := rfl

/-- Octets that were put back are the next ones. -/
theorem ahead_putBack {n : Nat} {bytes : Bytes} (h : n ≤ bytes.length) (transport : Transport) :
    ahead n (transport.putBack bytes) = .ok (bytes.take n) (transport.putBack bytes) := by
  induction n generalizing bytes with
  | zero => rfl
  | succ n ih =>
    cases bytes with
    | nil => exact absurd h (Nat.not_succ_le_zero n)
    | cons first rest =>
      simp only [ahead_succ, pull_putBack, ih (Nat.le_of_succ_le_succ h), putBack_append, List.singleton_append,
        List.take_succ_cons]

/-- Behind the octets put back, only what comes next matters. -/
theorem ahead_of_pull {transport transport' : Transport} (h : pull transport = pull transport') {n : Nat}
    {bytes : Bytes} (hn : bytes.length < n) :
    ahead n (transport.putBack bytes) = ahead n (transport'.putBack bytes) := by
  induction bytes generalizing n with
  | nil =>
    obtain ⟨n, rfl⟩ := Nat.exists_eq_add_one_of_ne_zero (Nat.ne_of_gt hn)
    simp only [putBack_nil, ahead_succ, h]
  | cons first rest ih =>
    obtain ⟨n, rfl⟩ := Nat.exists_eq_add_one_of_ne_zero (Nat.ne_of_gt (Nat.zero_lt_of_lt hn))
    simp only [ahead_succ, pull_putBack, ih (Nat.lt_of_succ_lt_succ hn)]

private theorem ahead_of_pull_error {transport after : Transport} {err : WireError}
    (h : pull transport = .error err after)
    {n : Nat} {bytes : Bytes} (hn : bytes.length < n) :
    ahead n (transport.putBack bytes) = .error err (after.putBack bytes) := by
  induction bytes generalizing n with
  | nil =>
    obtain ⟨n, rfl⟩ := Nat.exists_eq_add_one_of_ne_zero (Nat.ne_of_gt (Nat.zero_lt_of_lt hn))
    simp only [putBack_nil, ahead_succ, h]
  | cons first rest ih =>
    obtain ⟨n, rfl⟩ := Nat.exists_eq_add_one_of_ne_zero (Nat.ne_of_gt (Nat.zero_lt_of_lt hn))
    simp only [ahead_succ, pull_putBack, ih (Nat.lt_of_succ_lt_succ hn), putBack_append, List.singleton_append]

@[simp] theorem kind_putBack (bytes : Bytes) (transport : Transport) :
    (transport.putBack bytes).kind = transport.kind := by
  cases transport <;> rfl

@[simp] theorem head?_putBack (bytes : Bytes) (transport : Transport) :
    (transport.putBack bytes).head? = transport.head? := by
  cases transport <;> rfl

theorem putBack_injective (bytes : Bytes) : Function.Injective (putBack bytes) := by
  rintro (⟨_, _, _, _, _⟩ | ⟨⟨_, _, _, _, _⟩, _, _, _⟩ | ⟨_, _, _, _, _⟩)
    (⟨_, _, _, _, _⟩ | ⟨⟨_, _, _, _, _⟩, _, _, _⟩ | ⟨_, _, _, _, _⟩) h <;> simp_all [putBack]

theorem available_putBack (bytes : Bytes) (transport : Transport) :
    (transport.putBack bytes).available = bytes.length + transport.available := by
  cases transport <;> simp [putBack, available, Nat.add_assoc]

end Transport

namespace Channel

def source (channel : Channel) : Transport := channel.transport.putBack channel.readAhead

theorem available_source (channel : Channel) : channel.source.available = channel.available :=
  Transport.available_putBack _ _

/-- Reading ahead looks at the next octets of the source, in however large pieces they come. -/
theorem fill_ahead (n : Nat) (channel : Channel) : ∃ transport readAhead,
    (fill n channel = .ok () { channel with transport, readAhead } ∧ n ≤ readAhead.length ∧
      Transport.ahead n channel.source = .ok (readAhead.take n) (transport.putBack readAhead)) ∨
    ∃ err, fill n channel = .error err { channel with transport, readAhead } ∧
      Transport.ahead n channel.source = .error err (transport.putBack readAhead) := by
  fun_induction fill n channel with
  | case1 channel hle => exact ⟨_, _, .inl ⟨rfl, hle, Transport.ahead_putBack hle _⟩⟩
  | case2 channel hle err after hread =>
    have hpull : Transport.pull channel.transport = .error err after := by
      rw [Transport.pull_of_read (by decide : 0 < readSize), hread]
    exact ⟨_, _, .inr ⟨err, rfl, Transport.ahead_of_pull_error hpull (Nat.lt_of_not_le hle)⟩⟩
  | case3 channel hle after hread =>
    have hpull : Transport.pull channel.transport = .error .streamClosed after := by
      rw [Transport.pull_of_read (by decide : 0 < readSize), hread]
    exact ⟨_, _, .inr ⟨.streamClosed, rfl, Transport.ahead_of_pull_error hpull (Nat.lt_of_not_le hle)⟩⟩
  | case4 channel hle first more after hread ih =>
    have hpull : Transport.pull channel.transport = Transport.pull (after.putBack (first :: more)) := by
      rw [Transport.pull_of_read (by decide : 0 < readSize), hread, Transport.pull_putBack]
    have hsame : Transport.ahead n channel.source =
        Transport.ahead n (after.putBack (channel.readAhead ++ first :: more)) := by
      rw [← Transport.putBack_append]
      exact Transport.ahead_of_pull hpull (Nat.lt_of_not_le hle)
    rw [hsame]
    exact ih

end Channel
end RpcWire
