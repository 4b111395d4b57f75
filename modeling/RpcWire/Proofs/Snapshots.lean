import RpcWire.Proofs.Drawing.Values
import RpcWire.Proofs.Tracking.Sessions

/-! A value that is skipped while a capture runs. The octets captured are those that skipping took, and they are the
value: a reader that is given nothing else comes to what reading in place would have come to, since the codec's memory
of the structs around the value does not matter for it. -/
namespace RpcWire

def Transport.Pairing.itself (stop : WireError → Prop) : Transport.Pairing where
  near n transport transport' := transport = transport' ∧ transport.available < n
  stop := stop
  widen hle h := ⟨h.1, Nat.lt_of_lt_of_le h.2 hle⟩
  kind h := congrArg Transport.kind h.1
  head? h := congrArg Transport.head? h.1
  available h := .inl (congrArg Transport.available h.1)
  putBack bytes := by
    rw [(Transport.putBack_injective bytes).eq_iff, Transport.available_putBack]
    exact and_congr_right fun _ => by omega
  pull n := by
    rintro transport _ ⟨rfl, hless⟩
    cases hpull : Transport.pull transport with
    | ok first after =>
      have hafter := Transport.available_of_pull hpull
      exact .ok ⟨rfl, by omega⟩
    | error err after => exact .error ⟨after.available + 1, rfl, Nat.lt_succ_self _⟩

private theorem Codec.exists_suits (codec : Codec) : ∃ config, codec.Suits config := by
  cases codec with
  | binary codec => exact ⟨{ strictRead := codec.strict, limits := codec.limits }, rfl⟩
  | compact codec => exact ⟨{ limits := codec.limits }, rfl⟩

/-- A value that is read within some depth is read without a bound on it: there cannot be more levels than octets. -/
theorem Value.read_of_readWithin {depth : Nat} {tag : Tag} {codec final : Codec} {channel last : Channel}
    {value : Value} (h : readWithin depth tag ⟨codec, channel⟩ = .ok value ⟨final, last⟩) :
    ∃ last', read tag ⟨codec, channel⟩ = .ok value ⟨final, last'⟩ ∧ last'.unread = last.unread := by
  obtain ⟨config, hsuits⟩ := codec.exists_suits
  have hbeside (stop : WireError → Prop) : Endpoint.Beside (Codec.Suits config)
      ((Transport.Pairing.itself stop).channels.near (channel.available + 1)) ⟨codec, channel⟩ ⟨codec, channel⟩ :=
    ⟨rfl, hsuits, ⟨rfl, by rw [Channel.available_source]; exact Nat.lt_succ_self _⟩, rfl, rfl⟩
  have hwhole : ∃ after, readWithin (channel.available + 1) tag ⟨codec, channel⟩ = .ok value after ∧
      after.codec = final ∧ after.channel.source = last.source := by
    -- With more levels a read that did not fail for want of levels is the same; with fewer it is, too, as long as they
    -- are more than there are octets.
    rcases Nat.le_total depth (channel.available + 1) with hle | hle
    · have hsame := follows_readWithin (.inr ⟨hle, .inl rfl⟩) tag (hbeside (· = .depthLimit))
      rw [h] at hsame
      obtain ⟨after, hrun, hafter⟩ := hsame.of_ok_left
      exact ⟨after, hrun, hafter.codec.symm, hafter.near.source.1.symm⟩
    · have hnone (channel channel' : Channel) : ¬(Transport.Pairing.itself fun _ => False).Joined 0 channel channel' :=
        fun hnear => Nat.not_lt_zero _ hnear.source.2
      have hsame := follows_readWithin (.inr ⟨hle, .inr ⟨hnone, Nat.le_refl _⟩⟩) tag (hbeside fun _ => False)
      rw [h] at hsame
      obtain ⟨after, hrun, hafter⟩ := hsame.of_ok_right fun _ => id
      exact ⟨after, hrun, hafter.codec, hafter.near.source.1⟩
  obtain ⟨⟨final', last'⟩, hrun, rfl, hsource⟩ := hwhole
  exact ⟨last', hrun, by rw [Channel.unread_eq, Channel.unread_eq, hsource]⟩

namespace Channel

def withCaptured (captured : Option Bytes) (channel : Channel) : Channel := { channel with captured }

/-- The same octets consumed from the same input, with a capture and without one. -/
theorem eq_withCaptured {channel last last' : Channel} {taken taken' : Bytes} (h : channel.Consumes taken last)
    (h' : channel.startCapture.Consumes taken' last') (hsame : last.SameInput (fun _ _ => True) last') :
    last' = last.withCaptured (some taken) := by
  obtain ⟨transport, readAhead, pending, captured⟩ := last
  obtain ⟨transport', readAhead', pending', captured'⟩ := last'
  obtain ⟨rfl, rfl, -⟩ := hsame
  obtain rfl : taken = taken' := List.append_cancel_right (h.unread.symm.trans h'.unread)
  obtain rfl : pending' = channel.pending := h'.pending
  obtain rfl : pending = channel.pending := h.pending
  obtain rfl : captured' = some ([] ++ taken) := h'.captured
  rfl

end Channel

namespace WireM

/-- While a capture runs, skipping does the same, and the octets that it takes are captured. -/
theorem skip_capturing (depth : Nat) (tag : Tag) {codec : Codec} (h : codec.pendingRead = none ∨ tag = .bool)
    (channel : Channel) : ∃ taken,
    channel.unread = taken ++ (stateOf (skip depth tag ⟨codec, channel⟩)).channel.unread ∧
      skip depth tag ⟨codec, channel.startCapture⟩ = match skip depth tag ⟨codec, channel⟩ with
        | .ok () after => .ok () { after with channel := after.channel.withCaptured (some taken) }
        | .error err after => .error err { after with channel := after.channel.withCaptured (some taken) } := by
  obtain ⟨config, hsuits⟩ := codec.exists_suits
  have hsame := @follows_skip .input config 0 depth tag ⟨codec, channel⟩ ⟨codec, channel.startCapture⟩
    ⟨rfl, hsuits, rfl, rfl, trivial⟩
  have hdraws := draws_skip depth tag (.refl codec) h
  obtain ⟨taken, hconsumes⟩ := hdraws.consumes channel
  obtain ⟨taken', hconsumes'⟩ := hdraws.consumes channel.startCapture
  refine ⟨taken, hconsumes.unread, ?_⟩
  generalize skip depth tag ⟨codec, channel⟩ = result at hsame hconsumes ⊢
  generalize skip depth tag ⟨codec, channel.startCapture⟩ = result' at hsame hconsumes' ⊢
  cases hsame with
  | @ok value after after' hm =>
    obtain ⟨final, last⟩ := after
    obtain ⟨final', last'⟩ := after'
    obtain rfl : final = final' := hm.codec
    obtain rfl := Channel.eq_withCaptured hconsumes hconsumes' hm.near
    rfl
  | @error err after after' hm =>
    obtain ⟨final, last⟩ := after
    obtain ⟨final', last'⟩ := after'
    obtain rfl : final = final' := hm.codec
    obtain ⟨_, hnear⟩ := hm.near
    obtain rfl := Channel.eq_withCaptured hconsumes hconsumes' hnear
    rfl
  | stopped hstop => exact hstop.elim

end WireM

/-- What can be read wherever it stands is read of a stream that has nothing else. -/
theorem Reads.alone {κ α : Type} {codec codec' : κ} {act : CodecM κ α} {bytes : Bytes} {value : α}
    (h : Reads codec act bytes value codec') (chunk : Option Nat) :
    ∃ last, act ⟨codec, { transport := .raw { unread := bytes, chunk } }⟩ = .ok value ⟨codec', last⟩ ∧
      last.unread = [] := by
  have hholds := @Channel.holds_unread { transport := .raw { unread := bytes, chunk } } _ rfl
  rw [Channel.unread_raw rfl, List.nil_append] at hholds
  obtain ⟨last, hact, hlast⟩ := @h _ _ [] [] (by
    rw [List.append_nil]
    exact hholds)
  exact ⟨last, hact, hlast.unread_raw rfl⟩

/-- What is skipped is read, with the same octets, in place and alone. -/
theorem Value.read_of_skip {depth : Nat} {tag : Tag} {codec final : Codec} {channel last : Channel} {taken : Bytes}
    (hpending : codec.pendingRead = none) (h : WireM.skip depth tag ⟨codec, channel⟩ = .ok () ⟨final, last⟩)
    (htaken : channel.unread = taken ++ last.unread) : ∃ value there,
      read tag ⟨codec, channel⟩ = .ok value ⟨final, there⟩ ∧ there.unread = last.unread ∧
      ∀ chunk, ∃ alone, read tag ⟨codec.reset, { transport := .raw { unread := taken, chunk } }⟩ =
        .ok value ⟨codec.reset, alone⟩ ∧ alone.unread = [] := by
  rw [WireM.skip_eq_read] at h
  obtain ⟨value, middle, hread, hrest⟩ := ok_of_bind_ok h
  cases hrest
  obtain ⟨front, last', hconsumes, ⟨value', final', reset, hact, -, ⟨-, rfl⟩, hreads⟩ | ⟨err, final', hact⟩⟩ :=
    takes_readWithin depth tag (Codec.kin_reset hpending) hpending channel
  · rw [hread] at hact
    cases hact
    obtain rfl : taken = front := List.append_cancel_right (htaken.symm.trans hconsumes.unread)
    obtain ⟨there, hthere, hsame⟩ := read_of_readWithin hread
    refine ⟨value, there, hthere, hsame, fun chunk => ?_⟩
    obtain ⟨alone, halone, hend⟩ := hreads.alone chunk
    obtain ⟨alone', halone', hsame'⟩ := read_of_readWithin halone
    exact ⟨alone', halone', hsame'.trans hend⟩
  · rw [hread] at hact
    cases hact

/-- A truth value that is awaited is skipped without a look at the channel. -/
theorem WireM.skip_awaited {depth : Nat} {tag : Tag} {codec final : Codec} {channel last : Channel}
    (h : codec.pendingRead = none ∨ tag = .bool) (hpending : codec.pendingRead ≠ none)
    (hskip : skip depth tag ⟨codec, channel⟩ = .ok () ⟨final, last⟩) : last = channel := by
  obtain rfl := h.resolve_left hpending
  obtain ⟨value, hvalue⟩ := Option.ne_none_iff_exists'.mp hpending
  cases depth with
  | zero => cases hskip
  | succ depth =>
    cases codec with
    | binary codec => cases hvalue
    | compact codec =>
      have hawaited : codec.pendingRead = some value := hvalue
      obtain ⟨version, limits, lastField, outerFields, pendingWrite, pendingRead⟩ := codec
      obtain rfl : pendingRead = some value := hawaited
      cases hskip
      rfl

namespace Session
variable {session : Session} {tag : Tag}

private theorem skip_of_wire_ok {after : Endpoint Codec}
    (h : WireM.skip session.config.recursionLimit tag session.endpoint = .ok () after) :
    skip tag session = .ok () { session with endpoint := after } := by
  rw [skip, bind_of_ok (get_ok session)]
  exact onPart_ok h

private theorem skip_of_wire_error {err : WireError} {after : Endpoint Codec}
    (h : WireM.skip session.config.recursionLimit tag session.endpoint = .error err after) :
    skip tag session = .error err { session with endpoint := after } := by
  rw [skip, bind_of_ok (get_ok session)]
  exact onPart_error h

private theorem wire_ok_of_skip_ok {after : Session} (h : skip tag session = .ok () after) : ∃ endpoint,
    WireM.skip session.config.recursionLimit tag session.endpoint = .ok () endpoint ∧
      after = { session with endpoint } := by
  rw [skip, bind_of_ok (get_ok session)] at h
  exact ok_of_onPart_ok h

/-- A value is given as the octets that skipping it takes. -/
theorem readRaw_eq (h : session.endpoint.codec.pendingRead = none ∨ tag = .bool) : ∃ taken,
    session.endpoint.channel.unread = taken ++ (stateOf (skip tag session)).endpoint.channel.unread ∧
      readRaw tag session = match skip tag session with
        | .ok () after => .ok taken (after.mapChannel Channel.stopCapture)
        | .error err after => .error err (after.mapChannel Channel.stopCapture) := by
  obtain ⟨config, codec, channel⟩ := session
  obtain ⟨taken, hunread, hskip⟩ := WireM.skip_capturing config.recursionLimit tag h channel
  refine ⟨taken, ?_⟩
  cases hrun : WireM.skip config.recursionLimit tag ⟨codec, channel⟩ with
  | ok value after =>
    rw [hrun] at hunread hskip
    have hplain := @skip_of_wire_ok ⟨config, codec, channel⟩ _ _ hrun
    have hcapture := @skip_of_wire_ok (mapChannel Channel.startCapture ⟨config, codec, channel⟩) _ _ hskip
    rw [readRaw, hcapture, hplain]
    exact ⟨hunread, rfl⟩
  | error err after =>
    rw [hrun] at hunread hskip
    have hplain := @skip_of_wire_error ⟨config, codec, channel⟩ _ _ _ hrun
    have hcapture := @skip_of_wire_error (mapChannel Channel.startCapture ⟨config, codec, channel⟩) _ _ _ hskip
    rw [readRaw, hcapture, hplain]
    exact ⟨hunread, rfl⟩

/-- The octets of a value. If they are given, they stood in front of what is unread then, skipping the value in the
same place goes as well and ends alike, and unless the value came in the head of its field, they are the value: a codec
of the same encoding, version and limits, with no memory of any message, reads of them alone what would have been read
in place, and reads them to the end. If they are not given, skipping fails in the same way. In either case no capture
runs then. -/
theorem readRaw_is_value (h : session.endpoint.codec.pendingRead = none ∨ tag = .bool) :
    (∀ raw after, readRaw tag session = .ok raw after →
      session.endpoint.channel.unread = raw ++ after.endpoint.channel.unread ∧
      after.endpoint.channel.captured = none ∧
      (∃ skipped, skip tag session = .ok () skipped ∧ after = skipped.mapChannel Channel.stopCapture) ∧
      (session.endpoint.codec.pendingRead ≠ none → raw = []) ∧
      (session.endpoint.codec.pendingRead = none → ∃ value last,
        Value.read tag session.endpoint = .ok value ⟨after.endpoint.codec, last⟩ ∧
        last.unread = after.endpoint.channel.unread ∧
        ∀ chunk, ∃ alone,
          Value.read tag ⟨session.endpoint.codec.reset, { transport := .raw { unread := raw, chunk } }⟩ =
            .ok value ⟨session.endpoint.codec.reset, alone⟩ ∧ alone.unread = [])) ∧
    ∀ err after, readRaw tag session = .error err after →
      after.endpoint.channel.captured = none ∧
      ∃ skipped, skip tag session = .error err skipped ∧ after = skipped.mapChannel Channel.stopCapture := by
  obtain ⟨taken, hunread, hraw⟩ := readRaw_eq h
  rw [hraw]
  cases hskip : skip tag session with
  | error err skipped =>
    constructor <;> rintro _ _ ⟨⟩
    exact ⟨rfl, skipped, rfl, rfl⟩
  | ok value skipped =>
    constructor <;> rintro _ _ ⟨⟩
    rw [hskip] at hunread
    obtain ⟨config, codec, channel⟩ := session
    obtain ⟨⟨final, last⟩, hrun, rfl⟩ := wire_ok_of_skip_ok hskip
    refine ⟨hunread, rfl, ⟨_, rfl, rfl⟩, fun hawaited => ?_, fun hnone => ?_⟩
    · obtain rfl := WireM.skip_awaited h hawaited hrun
      exact List.self_eq_append_left.mp hunread
    · obtain ⟨value, there, hthere⟩ := Value.read_of_skip hnone hrun hunread
      exact ⟨value, there, hthere⟩

/-- A struct in the middle of another one, after its field 1000, in a frame that comes octet by octet: a reader that
stands in no struct reads the four octets given of it. -/
theorem readRaw_is_value_amid_struct : ∃ session after : Session,
    session = { config := {}, endpoint := { codec := .compact { lastField := 1000, outerFields := [7] }, channel :=
      { transport := .ofStream .framed { unread := [0, 0, 0, 6, 0x11, 0x15, 8, 0, 5, 7], chunk := some 1 } 64 } } } ∧
    session.endpoint.codec.pendingRead = none ∧ readRaw .struct session = .ok [0x11, 0x15, 8, 0] after ∧
    after.endpoint.channel.unread = [5, 7] ∧
    ∃ value alone, Value.read .struct ⟨.compact {}, { transport := .raw { unread := [0x11, 0x15, 8, 0] } }⟩ =
      .ok value ⟨.compact {}, alone⟩ ∧ alone.unread = [] := by
  let session : Session := { config := {}, endpoint :=
    { codec := .compact { lastField := 1000, outerFields := [7] }, channel :=
      { transport := .ofStream .framed { unread := [0, 0, 0, 6, 0x11, 0x15, 8, 0, 5, 7], chunk := some 1 } 64 } } }
  obtain ⟨after, hraw⟩ : ∃ after, readRaw .struct session = .ok [0x11, 0x15, 8, 0] after :=
    exists_ok_of_run' (by decide +kernel)
  obtain ⟨hunread, -, -, -, hvalue⟩ := (readRaw_is_value (.inl rfl)).1 _ _ hraw
  obtain ⟨value, last, -, -, halone⟩ := hvalue rfl
  have hbefore : session.endpoint.channel.unread = [0x11, 0x15, 8, 0] ++ [5, 7] := by decide +kernel
  exact ⟨session, after, rfl, rfl, hraw, (List.append_cancel_left (hbefore.symm.trans hunread)).symm, value,
    halone none⟩

end Session
end RpcWire
