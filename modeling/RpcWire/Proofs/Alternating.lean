import RpcWire.Proofs.Parcels
import RpcWire.Proofs.Resetting

/-! Reading and writing in turns on a session with envelopes. The encoding and the number that the last envelope named
are in force for what is read next and for what is written next alike, until another envelope is entered or something
else is said: a message that is begun says its encoding, and a request its number. -/
namespace RpcWire

/-! ## The codec at work -/

namespace Codec
variable {config : SessionConfig} {codec : Codec}

instance (codec : Codec) : Decidable codec.Idle :=
  match codec with
  | .binary _ => inferInstanceAs (Decidable True)
  | .compact codec => inferInstanceAs (Decidable (codec.pendingWrite = none ∧ codec.pendingRead = none))

def turned (config : SessionConfig) (encoding : Encoding) (codec : Codec) : Codec :=
  if codec.encoding = encoding then codec else
    match config.codec? encoding with
    | .ok fresh => fresh
    | .error _ => codec

def learned (format : Format) : Codec → Codec
  | .binary codec => .binary codec
  | .compact codec => .compact { codec with version := format.compactVersion?.getD codec.version }

def prepared (config : SessionConfig) (format : Format) (codec : Codec) : Codec :=
  (codec.turned config format.encoding).reset.learned format

theorem encoding_turned (config : SessionConfig) (format : Format) (codec : Codec) :
    (codec.turned config format.encoding).encoding = format.encoding := by
  rw [turned]
  split
  · assumption
  · cases format <;> rfl

theorem limits_turned (h : codec.limits = config.limits) (encoding : Encoding) :
    (codec.turned config encoding).limits = config.limits := by
  rw [turned]
  split
  · exact h
  · cases encoding with
    | binary | compact => rfl
    | json | reserved id => exact h

theorem encoding_prepared (config : SessionConfig) (format : Format) (codec : Codec) :
    (codec.prepared config format).encoding = format.encoding := by
  have hlearned (codec : Codec) : (codec.learned format).encoding = codec.encoding := by cases codec <;> rfl
  rw [prepared, hlearned, encoding_reset, encoding_turned]

theorem prepared_spec (h : codec.limits = config.limits) (format : Format) :
    (codec.prepared config format).format = format ∧ (codec.prepared config format).Idle ∧
      (codec.prepared config format).limits = config.limits := by
  have hencoding := encoding_turned config format codec
  have hlimits := limits_turned h format.encoding
  rw [prepared]
  generalize codec.turned config format.encoding = turned at hencoding hlimits
  cases turned with
  | binary turned =>
    cases format with
    | binary => exact ⟨rfl, trivial, hlimits⟩
    | compact version => cases hencoding
  | compact turned =>
    cases format with
    | binary => cases hencoding
    | compact version => exact ⟨rfl, ⟨rfl, rfl⟩, hlimits⟩

end Codec

theorem WireM.reads_learned {codec : Codec} {format : Format} (hencoding : codec.encoding = format.encoding)
    {header : MessageHeader} (h : (Utf8.encode header.name).length ≤ Endpoint.maxSize)
    (hlimit : Endpoint.Within codec.limits.text (Utf8.encode header.name).length) :
    Reads codec readMessageBegin (format.message header) header (codec.learned format) := by
  cases codec with
  | binary codec =>
    cases format with
    | binary => exact (codec.reads_messageBegin h hlimit).binary _
    | compact version => cases hencoding
  | compact codec =>
    cases format with
    | binary => cases hencoding
    | compact version => exact (codec.reads_messageBegin version h hlimit).compact _

namespace Session

private theorem switchTo_turned (encoding : Encoding) (session : Session) :
    stateOf (switchTo encoding session) =
    { session with endpoint := { session.endpoint with
      codec := session.endpoint.codec.turned session.config encoding } } := by
  by_cases hsame : session.endpoint.codec.encoding = encoding
  · rw [switchTo, bind_of_ok (get_ok session), Session.encoding, if_pos hsame, Codec.turned, if_pos hsame]
    rfl
  · rw [switchTo, bind_of_ok (get_ok session), Session.encoding, if_neg hsame, Codec.turned, if_neg hsame]
    cases session.config.codec? encoding <;> rfl

theorem switchTo_format (format : Format) (session : Session) : switchTo format.encoding session =
    .ok () { session with endpoint := { session.endpoint with
      codec := session.endpoint.codec.turned session.config format.encoding } } := by
  by_cases hsame : session.endpoint.codec.encoding = format.encoding
  · rw [switchTo, bind_of_ok (get_ok session), Session.encoding, if_pos hsame, Codec.turned, if_pos hsame]
    rfl
  · rw [switchTo, bind_of_ok (get_ok session), Session.encoding, if_neg hsame, Codec.turned, if_neg hsame]
    cases format <;> rfl

def Writing.recode (writing : Writing) (codec : Codec) : Codec :=
  (stateOf (writing.run { config := {}, endpoint := { codec, channel := { transport := .raw {} } } })).endpoint.codec

def Doing.recode (config : SessionConfig) (codec : Codec) : Doing → Codec
  | .tell _ => codec
  | .switchTo encoding => codec.turned config encoding
  | .write writing => writing.recode codec

def Doing.declares (doing : Doing) (codec : Codec) (heading : Heading) : Heading :=
  match doing with
  | .tell (.encoding next) => { heading with encoding := next }
  | .tell (.seqId number) => { heading with seqId := number }
  | .write (.messageBegin header) =>
    { encoding := codec.encoding, seqId := if header.kind.isRequest then header.seqId.toUInt32 else heading.seqId }
  | _ => heading

/-- A session after an act of writing: its settings are the same, and so is what it has still to read. -/
structure Leaves (codec : Codec) (declares : Heading → Heading) (session after : Session) : Prop where
  config : after.config = session.config
  codec : after.endpoint.codec = codec
  limited : session.Limited → after.Limited
  amid : ∀ {max heading current later}, session.endpoint.channel.Amid max heading current later →
    after.endpoint.channel.Amid max (declares heading) current later

private theorem Leaves.trans {codec codec' : Codec} {declares declares' : Heading → Heading}
    {session middle after : Session}
    (h : Leaves codec declares session middle) (h' : Leaves codec' declares' middle after) :
    Leaves codec' (declares' ∘ declares) session after :=
  ⟨h'.config.trans h.config, h'.codec, h'.limited ∘ h.limited, fun hamid => h'.amid (h.amid hamid)⟩

/-- Octets gathered for the next flush change the codec, the same whatever channel they are for, and nothing else. -/
theorem leaves_gathers {act : WireM Unit} (h : Gathers act) (hkeeps : act.KeepsKind) (codec : Codec) :
    ∃ codec', ∀ session : Session, session.endpoint.codec = codec →
      Leaves codec' id session (stateOf (onWire act session)) := by
  obtain ⟨codec', bytes, hact⟩ := h codec
  refine ⟨codec', ?_⟩
  rintro session rfl
  have hkind := hkeeps _ _ (show Endpoint.OfCodec _ session.endpoint from ⟨rfl, rfl⟩)
  rcases hact with ⟨value, hok⟩ | ⟨err, herr⟩
  · rw [hok session.endpoint.channel] at hkind
    simp only [onWire, onPart, hok session.endpoint.channel]
    exact ⟨rfl, rfl, hkind.2.trans, id⟩
  · rw [herr session.endpoint.channel] at hkind
    simp only [onWire, onPart, herr session.endpoint.channel]
    exact ⟨rfl, rfl, hkind.2.trans, id⟩

private theorem encoding_onWire {act : WireM Unit} (h : act.KeepsKind) (session : Session) :
    (stateOf (onWire act session)).encoding = session.encoding := by
  have hkind := h _ _ (show Endpoint.OfCodec _ session.endpoint from ⟨rfl, rfl⟩)
  simp only [onWire, onPart]
  cases hr : act session.endpoint <;> rw [hr] at hkind <;> exact hkind.1

private theorem leaves_flush (session : Session) :
    Leaves session.endpoint.codec id session (stateOf (flush session)) := by
  have hshared {channel : Channel} (hamid : ∀ {max heading current later},
      session.endpoint.channel.Amid max heading current later → channel.Amid max heading current later) :
      Leaves session.endpoint.codec id session { session with endpoint := { session.endpoint with channel } } :=
    ⟨rfl, rfl, id, hamid⟩
  simp only [flush, onWire, WireM.flush, Endpoint.onChannel, onPart]
  cases hr : Channel.flush session.endpoint.channel with
  | ok value channel => exact hshared (Channel.maintains_amid_flush.of_ok hr)
  | error err channel => exact hshared (Channel.maintains_amid_flush.of_error hr)

/-- The head of a message declares the encoding of the codec at work, and that of a request its number. -/
theorem leaves_addressed (header : MessageHeader) (session : Session) :
    Leaves session.endpoint.codec.reset ((Doing.write (.messageBegin header)).declares session.endpoint.codec) session
      (session.addressed header) :=
  ⟨rfl, rfl, (Codec.limits_reset _).trans, fun hamid => hamid.mapHead fun _ => rfl⟩

private theorem keepsKind_messageBegin (header : MessageHeader) : (WireM.writeMessageBegin header).KeepsKind :=
  WireM.keepsKind_dispatch (fun _ => Binary.maintains_messageBegin header) fun _ =>
    Compact.maintains_messageBegin header

private theorem leaves_messageBegin (header : MessageHeader) (codec : Codec) :
    ∃ codec', ∀ session : Session, session.endpoint.codec = codec →
      Leaves codec' ((Doing.write (.messageBegin header)).declares codec) session
        (stateOf (writeMessageBegin header session)) := by
  obtain ⟨codec', hcodec⟩ := leaves_gathers (WireM.gathers_messageBegin header)
    (keepsKind_messageBegin header) codec.reset
  refine ⟨codec', ?_⟩
  rintro session rfl
  rw [writeMessageBegin_eq]
  exact (leaves_addressed header session).trans (hcodec (session.addressed header) rfl)

/-- A part of a message changes the codec, the same whatever channel it is for, and declares what it does. -/
theorem Writing.leaves_same (writing : Writing) (codec : Codec) :
    ∃ codec', ∀ session : Session, session.endpoint.codec = codec →
      Leaves codec' ((Doing.write writing).declares codec) session (stateOf (writing.run session)) := by
  by_cases hhead : ∃ header, writing = .messageBegin header
  · obtain ⟨header, rfl⟩ := hhead
    exact leaves_messageBegin header codec
  · have hdeclares : (Doing.write writing).declares codec = id := by
      cases writing with
      | messageBegin header => exact absurd ⟨header, rfl⟩ hhead
      | _ => rfl
    rw [hdeclares]
    rcases writing.run_cases with hbegin | rfl | ⟨act, hgathers, hkeeps, hrun⟩
    · exact absurd hbegin hhead
    · refine ⟨codec, ?_⟩
      rintro session rfl
      exact leaves_flush session
    · rw [hrun]
      exact leaves_gathers hgathers hkeeps codec

theorem Writing.leaves (writing : Writing) (session : Session) :
    Leaves (writing.recode session.endpoint.codec) ((Doing.write writing).declares session.endpoint.codec) session
      (stateOf (writing.run session)) := by
  obtain ⟨codec, hcodec⟩ := writing.leaves_same session.endpoint.codec
  have hbare := hcodec { config := {}, endpoint := {
    codec := session.endpoint.codec, channel := { transport := .raw {} } } } rfl
  rw [recode, hbare.codec]
  exact hcodec session rfl

/-- Parts of a message are written in the encoding that the codec has. -/
theorem Writing.encoding_run (writing : Writing) (session : Session) :
    (stateOf (writing.run session)).encoding = session.encoding := by
  rcases writing.run_cases with ⟨header, rfl⟩ | rfl | ⟨act, -, hkeeps, hrun⟩
  · rw [run, writeMessageBegin_eq, encoding_onWire (keepsKind_messageBegin header)]
    exact Codec.encoding_reset session.endpoint.codec
  · exact congrArg Codec.encoding (leaves_flush session).codec
  · rw [hrun, encoding_onWire hkeeps]

theorem Writing.encoding_recode (writing : Writing) (codec : Codec) :
    (writing.recode codec).encoding = codec.encoding :=
  writing.encoding_run _

/-- Every act of writing leaves all that is to be read. -/
theorem Doing.leaves (doing : Doing) (session : Session) :
    Leaves (doing.recode session.config session.endpoint.codec) (doing.declares session.endpoint.codec) session
      (stateOf (doing.run session)) := by
  cases doing with
  | tell setting => exact ⟨rfl, rfl, id, fun hamid => hamid.mapHead fun _ => by cases setting <;> rfl⟩
  | switchTo encoding =>
    rw [run, switchTo_turned]
    exact ⟨rfl, rfl, fun h => Codec.limits_turned h encoding, id⟩
  | write writing => exact writing.leaves session

end Session
end RpcWire
