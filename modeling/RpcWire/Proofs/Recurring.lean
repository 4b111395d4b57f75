import RpcWire.Proofs.Wearing

/-! Requests on a connection that was used before. They are those of a new connection, but that they go out in the
encoding of the last reply, and with the flags of its envelope. -/
namespace RpcWire
variable {settings : PoolSettings}

/-! ## Histories -/

namespace Connection
variable {α : Type} {call : Call α} {connection asked after : Connection} {peer : Stream → Stream}

/-- A connection that was opened with the settings and kept through a history of exchanges, whatever the other side sent
and did to the socket. -/
inductive Lived (settings : PoolSettings) : Connection → Prop where
  | opened {serial openedAt : Nat} {address : SocketAddress} {stream : Stream} {connection : Connection}
    (hopen : ofStream? settings serial address openedAt stream = .ok connection) : Lived settings connection
  | exchanged {α : Type} {call : Call α} {peer : Stream → Stream} {connection asked after : Connection}
    (before : Lived settings connection) (plain : call.Plain) (hsent : sendRequest call connection = .ok () asked)
    (keeps : Keeps (exchange peer call connection) after) : Lived settings after
  | released {connection : Connection} (before : Lived settings connection) (now : Nat) :
    Lived settings (connection.release now)
  | idle {connection : Connection} (before : Lived settings connection) (peer : Stream → Stream) :
    Lived settings (connection.mapStream peer)

private theorem clear_introduced (settings : PoolSettings) (stream : Stream) :
    ((Transport.ofStream settings.session.transport stream settings.session.maxFrameSize).mapHead fun head =>
      { head with identity := settings.identity, outgoingLasting := settings.lastingHeaders }).Clear settings := by
  cases hkind : settings.session.transport with
  | raw => exact hkind
  | framed => exact ⟨hkind, rfl, rfl⟩
  | header => exact ⟨hkind, rfl, rfl, rfl, rfl, rfl⟩

/-- A new connection has a codec and a transport of its settings. -/
theorem eq_of_opened {serial openedAt : Nat} {address : SocketAddress} {stream : Stream}
    (hopen : ofStream? settings serial address openedAt stream = .ok connection) :
    ∃ codec, settings.session.codec? settings.session.encoding = .ok codec ∧
      connection.session = { config := settings.session, endpoint := { codec, channel := {
        transport := (Transport.ofStream settings.session.transport stream settings.session.maxFrameSize).mapHead
          fun head => { head with identity := settings.identity, outgoingLasting := settings.lastingHeaders } } } } ∧
      connection.lastSeqId = 0 := by
  unfold ofStream? at hopen
  cases hsession : Session.ofStream? settings.session stream with
  | error err =>
    rw [hsession] at hopen
    cases hopen
  | ok session =>
    rw [hsession] at hopen
    cases hopen
    obtain ⟨codec, hcodec, rfl⟩ := Session.eq_of_open hsession
    exact ⟨codec, hcodec, rfl, rfl⟩

private theorem worn_opened {serial openedAt : Nat} {address : SocketAddress} {stream : Stream}
    (hopen : ofStream? settings serial address openedAt stream = .ok connection) :
    connection.session.Worn settings := by
  obtain ⟨codec, hcodec, hsession, -⟩ := eq_of_opened hopen
  rw [hsession]
  exact ⟨rfl, SessionConfig.suits_codec? hcodec, rfl, clear_introduced settings stream⟩

private theorem worn_mapStream (h : connection.session.Worn settings) (peer : Stream → Stream) :
    (connection.mapStream peer).session.Worn settings := by
  refine ⟨h.config, h.suits, h.channel.pending, ?_⟩
  have htransport := h.channel.transport
  obtain ⟨_, _, ⟨_, _, transport, _, _, _⟩, _⟩ := connection
  cases transport with
  | raw stream => exact htransport
  | framed layer => exact ⟨htransport.1, htransport.2.maxSize, htransport.2.pending⟩
  | header layer => exact ⟨htransport.1, htransport.2.maxSize, htransport.2.pending, htransport.2.head⟩

private theorem worn_sent (h : connection.session.Worn settings) (plain : call.Plain)
    (hsent : sendRequest call connection = .ok () asked) : asked.session.Worn settings := by
  rw [sendRequest_eq] at hsent
  split at hsent
  · cases hsent
  · rw [onSession] at hsent
    split at hsent
    · next session hsend =>
      cases hsent
      exact h.sent (f := fun head => { head with outgoing := head.outgoing.insertMany call.headers })
        (fun _ => ⟨rfl, rfl⟩) plain.gathers (plain.arguments _ _) hsend
    · cases hsent

/-- Whatever comes of reading a reply. -/
theorem maintains_receiveReply (plain : call.Plain) :
    Maintains (fun connection : Connection => connection.session.Worn settings) (receiveReply call) := by
  have hsession {β : Type} {act : SessionM β} (hact : Maintains (Session.Worn settings) act) :
      Maintains (fun connection : Connection => connection.session.Worn settings) (onSession .ofWire act) := by
    intro connection hworn
    rw [onSession]
    cases hr : act connection.session with
    | ok value session => exact hact.of_ok hr hworn
    | error err session => exact hact.of_error hr hworn
  refine .get fun _ _ => (hsession (.maintains Session.alike_readMessageBegin)).bind fun _ => ?_
  exact .check (.check (.check (hsession (.maintains (.onWire (plain.result _ _))))))

/-- One exchange. -/
theorem worn_exchanged (h : connection.session.Worn settings) (plain : call.Plain)
    (hsent : sendRequest call connection = .ok () asked) (keeps : Keeps (exchange peer call connection) after) :
    after.session.Worn settings := by
  have hasked := worn_mapStream (worn_sent h plain hsent) peer
  cases honeway : call.oneway with
  | true =>
    rw [exchange_oneway honeway hsent] at keeps
    rw [keeps.of_ok]
    exact hasked
  | false =>
    have hreply := maintains_receiveReply plain hasked
    rw [exchange_of_sent honeway hsent] at keeps
    cases hr : receiveReply call (asked.mapStream peer) with
    | ok value last =>
      rw [hr] at keeps hreply
      rw [keeps.of_ok]
      exact hreply
    | error err last =>
      rw [hr] at keeps hreply
      obtain ⟨hkeeps, rfl⟩ := keeps.of_error
      rw [hkeeps]
      exact hreply

/-- A whole history. -/
theorem worn_lived (h : Lived settings connection) : connection.session.Worn settings := by
  induction h with
  | opened hopen => exact worn_opened hopen
  | exchanged before plain hsent keeps ih => exact worn_exchanged ih plain hsent keeps
  | released before now ih => exact ih
  | idle before peer ih => exact worn_mapStream ih peer

/-! ## The next request -/

/-- What comes of sending a request: the failure, if it fails, and all that was written to the stream by then. -/
def sending (call : Call α) (connection : Connection) : Option ClientError × Bytes :=
  match sendRequest call connection with
  | .ok _ after => (none, after.session.stream.written)
  | .error err after => (some err, after.session.stream.written)

private theorem sending_of_look (call : Call α)
    (hlook : (connection.reused && connection.isOutOfStep) = false) :
    connection.sending call =
      ((Session.shown (Session.send (connection.nextHeader call) call.arguments)
          (connection.prepared call).session).1.map ofWriteError,
        (Session.shown (Session.send (connection.nextHeader call) call.arguments)
          (connection.prepared call).session).2) := by
  rw [sending, sendRequest_eq, hlook, if_neg Bool.false_ne_true, onSession, Session.shown]
  cases Session.send (connection.nextHeader call) call.arguments (connection.prepared call).session <;> rfl

def flags (connection : Connection) : UInt16 := (connection.session.transport.head?.map (·.flags)).getD 0

def following (old fresh : Connection) : Connection :=
  { fresh with
    lastSeqId := old.lastSeqId
    session := fresh.session.mapTransport (Transport.mapHead fun head => { head with flags := old.flags }) }

end Connection

def PoolSettings.speaking (codec : Codec) (settings : PoolSettings) : PoolSettings :=
  { settings with session := { settings.session with
      encoding := codec.encoding
      compactVersion := codec.compactVersion?.getD settings.session.compactVersion } }

namespace Connection
variable {α : Type} {call : Call α} {connection asked after : Connection} {peer : Stream → Stream}

/-- Between messages, a codec is as the settings that speak like it have it. -/
theorem exists_codec {codec : Codec} (h : codec.Suits settings.session) :
    ∃ codec', (settings.speaking codec).session.codec? (settings.speaking codec).session.encoding = .ok codec' ∧
      codec'.reset = codec.reset ∧ codec'.encoding = codec.encoding := by
  cases codec with
  | binary codec =>
    obtain rfl : codec = { strict := settings.session.strictRead, limits := settings.session.limits } := h
    exact ⟨_, rfl, rfl, rfl⟩
  | compact codec =>
    have hlimits : codec.limits = settings.session.limits := h
    refine ⟨_, rfl, ?_, rfl⟩
    simp only [Codec.reset, Compact.reset, hlimits]
    rfl

/-- What writing sees of a connection set for its next request. -/
theorem outward_prepared (call : Call α) (connection : Connection) :
    ((connection.prepared call).session.addressed (connection.nextHeader call)).endpoint.outward =
      { codec := connection.session.endpoint.codec.reset
        channel := {
          pending := connection.session.endpoint.channel.pending
          transport := (connection.session.transport.mapHead fun head => { head with
            outgoing := head.outgoing.insertMany call.headers
            encoding := connection.session.encoding
            seqId := (nextSeqId connection.lastSeqId).toUInt32 }).outward } } := by
  have hrequest : (connection.nextHeader call).kind.isRequest = true := by
    rw [nextHeader, Call.kind]
    split <;> rfl
  obtain ⟨serial, address, ⟨config, codec, transport, readAhead, pending, captured⟩, lastSeqId⟩ := connection
  cases transport with
  | header layer =>
    simp only [Session.addressed, hrequest, if_true]
    rfl
  | raw stream => rfl
  | framed layer => rfl

/-- A transport with nothing that waits to be sent and a new one with its flags agree on what writing sees, once they
are set for a request. -/
theorem outward_clear {transport : Transport} {stream : Stream} (h : transport.Clear settings)
    (hstream : stream.outward = transport.stream.outward) (headers : List (String × String)) (encoding : Encoding)
    (seqId : UInt32) :
    let set (head : EnvelopeHead) : EnvelopeHead :=
      { head with outgoing := head.outgoing.insertMany headers, encoding, seqId }
    ((((Transport.ofStream settings.session.transport stream settings.session.maxFrameSize).mapHead fun head =>
        { head with identity := settings.identity, outgoingLasting := settings.lastingHeaders }).mapHead fun head =>
        { head with flags := (transport.head?.map (·.flags)).getD 0 }).mapHead set).outward =
      (transport.mapHead set).outward := by
  intro set
  cases transport with
  | raw old =>
    have hkind : settings.session.transport = .raw := h
    rw [hkind]
    exact congrArg Transport.raw hstream
  | framed layer =>
    obtain ⟨hkind, hmaxSize, hpending⟩ := h
    have hlayer :
        ({ stream := stream, maxSize := settings.session.maxFrameSize } : Framed).outward = layer.outward := by
      simp only [Framed.outward, Framed.facing, hmaxSize, hpending]
      exact congrArg (fun stream => ({ stream, maxSize := settings.session.maxFrameSize } : Framed)) hstream
    rw [hkind]
    exact congrArg Transport.framed hlayer
  | header layer =>
    obtain ⟨hkind, hmaxSize, hpending, hidentity, hlasting, honce⟩ := h
    obtain ⟨old, maxSize, head, payload, pending⟩ := layer
    obtain ⟨_, _, flags, identity, peerIdentity, outgoing, lasting, incoming, incomingLasting⟩ := head
    subst hmaxSize hpending hidentity hlasting honce
    rw [hkind]
    exact congrArg (fun stream => Transport.header { stream, maxSize := settings.session.maxFrameSize, head :=
      { encoding, seqId, flags, identity := settings.identity, outgoing := Headers.insertMany ∅ headers
        outgoingLasting := settings.lastingHeaders } }) hstream

/-- Set for the next request, a worn connection and a new one that follows it agree on what writing sees. -/
theorem outward_following {stream : Stream} {serial openedAt : Nat} {address : SocketAddress} {fresh : Connection}
    (h : connection.session.Worn settings) (hstream : stream.outward = connection.session.stream.outward)
    (hopen : ofStream? (settings.speaking connection.session.endpoint.codec) serial address openedAt stream = .ok fresh)
    (call : Call α) :
    (((connection.following fresh).prepared call).session.addressed
        ((connection.following fresh).nextHeader call)).endpoint.outward =
      ((connection.prepared call).session.addressed (connection.nextHeader call)).endpoint.outward := by
  obtain ⟨codec, hcodec, hsession, -⟩ := eq_of_opened hopen
  obtain ⟨codec', hcodec', hreset, hencoding⟩ := exists_codec h.suits
  obtain rfl : codec = codec' := Except.ok.inj (hcodec.symm.trans hcodec')
  have hnew : (connection.following fresh).session.encoding = connection.session.encoding := by
    rw [following, hsession]
    exact hencoding
  rw [outward_prepared, outward_prepared, hnew, h.channel.pending, ← hreset]
  have htransport := outward_clear h.channel.transport hstream call.headers connection.session.encoding
    (nextSeqId connection.lastSeqId).toUInt32
  rw [following, hsession]
  exact congrArg (fun transport => ({ codec := codec.reset, channel := { transport } } : Endpoint Codec)) htransport

/-- What the next request on a connection is, whatever was exchanged on it before. -/
structure SendsAsNew (settings : PoolSettings) (call : Call α) (connection : Connection) : Prop where
  /-- Where a look at a connection that lay idle forbids it, nothing is written. -/
  refused : connection.reused = true → connection.isOutOfStep = true →
    connection.sending call = (some .peerClosed, connection.session.stream.written)
  /-- Otherwise the request is that of a new connection on a socket that takes as much, with the same settings but the
  encoding and the version of the last message read, and with the flags of the last envelope read. -/
  alike : (connection.reused && connection.isOutOfStep) = false →
    ∀ (serial : Nat) (address : SocketAddress) (openedAt : Nat) (stream : Stream),
      stream.outward = connection.session.stream.outward →
        ∃ fresh, ofStream? (settings.speaking connection.session.endpoint.codec) serial address openedAt stream =
            .ok fresh ∧
          connection.sending call = (connection.following fresh).sending call
  /-- Where these are the configured ones, it is the request of a new connection with the settings. -/
  configured : (connection.reused && connection.isOutOfStep) = false →
    connection.session.encoding = settings.session.encoding →
    (∀ version, connection.session.endpoint.codec.compactVersion? = some version →
      version = settings.session.compactVersion) →
    connection.flags = 0 →
    ∀ (serial : Nat) (address : SocketAddress) (openedAt : Nat) (stream : Stream),
      stream.outward = connection.session.stream.outward →
        ∃ fresh, ofStream? settings serial address openedAt stream = .ok fresh ∧
          connection.sending call = { fresh with lastSeqId := connection.lastSeqId }.sending call

private theorem exists_opened {codec : Codec} (h : codec.Suits settings.session) (serial : Nat)
    (address : SocketAddress)
    (openedAt : Nat) (stream : Stream) :
    ∃ fresh, ofStream? (settings.speaking codec) serial address openedAt stream = .ok fresh ∧ fresh.reused = false := by
  obtain ⟨codec', hcodec, -⟩ := exists_codec h
  rw [ofStream?, Session.ofStream?, hcodec]
  exact ⟨_, rfl, rfl⟩

private theorem sending_following {stream : Stream} {serial openedAt : Nat} {address : SocketAddress}
    {fresh : Connection}
    (h : connection.session.Worn settings) (hlook : (connection.reused && connection.isOutOfStep) = false)
    (hstream : stream.outward = connection.session.stream.outward)
    (hopen : ofStream? (settings.speaking connection.session.endpoint.codec) serial address openedAt stream = .ok fresh)
    (hfresh : fresh.reused = false) (hcall : Gathers call.arguments) :
    connection.sending call = (connection.following fresh).sending call := by
  have hlook' : ((connection.following fresh).reused && (connection.following fresh).isOutOfStep) = false := by
    have hreused : (connection.following fresh).reused = false := hfresh
    rw [hreused, Bool.false_and]
  have hshown :
      Session.shown (Session.send (connection.nextHeader call) call.arguments) (connection.prepared call).session =
        Session.shown (Session.send ((connection.following fresh).nextHeader call) call.arguments)
          ((connection.following fresh).prepared call).session :=
    Session.shown_send_congr hcall (outward_following h hstream hopen call).symm
  rw [sending_of_look call hlook, sending_of_look call hlook', hshown]

/-- Settings that name the encoding and the version of a codec speak like it. -/
theorem speaking_eq {codec : Codec} (hencoding : codec.encoding = settings.session.encoding)
    (hversion : ∀ version, codec.compactVersion? = some version → version = settings.session.compactVersion) :
    settings.speaking codec = settings := by
  have hsame : codec.compactVersion?.getD settings.session.compactVersion = settings.session.compactVersion := by
    cases hcodec : codec.compactVersion? with
    | none => rfl
    | some version => exact hversion version hcodec
  rw [PoolSettings.speaking, hencoding, hsame]

/-- Envelopes of a new connection have no flags. -/
theorem following_of_flags {stream : Stream} {serial openedAt : Nat} {address : SocketAddress} {fresh : Connection}
    (hopen : ofStream? settings serial address openedAt stream = .ok fresh) (hflags : connection.flags = 0) :
    connection.following fresh = { fresh with lastSeqId := connection.lastSeqId } := by
  obtain ⟨codec, -, hsession, -⟩ := eq_of_opened hopen
  rw [following, hflags, hsession]
  congr 1
  cases settings.session.transport <;> rfl

private theorem sendsAsNew_of_worn (h : connection.session.Worn settings) (hcall : Gathers call.arguments) :
    SendsAsNew settings call connection := by
  refine ⟨fun hreused hstep => ?_, fun hlook serial address openedAt stream hstream => ?_,
    fun hlook hencoding hversion hflags serial address openedAt stream hstream => ?_⟩
  · rw [sending, sendRequest_eq, hreused, hstep]
    rfl
  · obtain ⟨fresh, hopen, hfresh⟩ := exists_opened h.suits serial address openedAt stream
    exact ⟨fresh, hopen, sending_following h hlook hstream hopen hfresh hcall⟩
  · obtain ⟨fresh, hopen, hfresh⟩ := exists_opened h.suits serial address openedAt stream
    have hsending := sending_following h hlook hstream hopen hfresh hcall
    rw [speaking_eq hencoding hversion] at hopen
    rw [following_of_flags hopen hflags] at hsending
    exact ⟨fresh, hopen, hsending⟩

/-- Whatever was exchanged on a connection before, and whatever the other side answered: all that is left of it in the
next request is the encoding and the version of the last message read, and the flags of the last envelope. -/
theorem lived_sendsAsNew (h : Lived settings connection) (hcall : Gathers call.arguments) :
    SendsAsNew settings call connection :=
  sendsAsNew_of_worn (worn_lived h) hcall

private theorem plain_search (request : Search.Request) : (search request).Plain where
  gathers := by
    have hwrite : (search request).arguments = request.toValue.write := request.write_eq
    rw [hwrite]
    exact Value.gathers_write _
  arguments _ _ _ := Search.Request.follows_write request
  result _ _ _ := Search.Response.follows_read 64

def compactReply : Bytes :=
  [0, 0, 0, 18, 0x82, 0x41, 1, 6, 83, 101, 97, 114, 99, 104, 0x19, 0x18, 2, 114, 49, 0x15, 14, 0]

/-- What is to be seen of the next search on a connection once it has lain idle. -/
structure Next where
  outOfStep : Bool
  /-- What comes of it. -/
  again : Option ClientError × Bytes
  /-- What comes of it on a new connection with the same number. -/
  new : Option (Option ClientError × Bytes)
  deriving DecidableEq

def onNext (connection : Connection) : Next where
  outOfStep := (connection.release 0).isOutOfStep
  again := (connection.release 0).sending (search {})
  new := match ofStream? {} 0 .loopback 0 connection.session.stream with
    | .ok fresh => some ({ fresh with lastSeqId := connection.lastSeqId }.sending (search {}))
    | .error _ => none

private theorem exists_next {reply : Option Search.Response} {again new : Option ClientError × Bytes}
    (hopen : ofStream? {} 0 .loopback 0 .connected = .ok connection)
    (hsent : sendRequest (search {}) connection = .ok () asked)
    (h : EStateM.run' (do
        let reply ← exchange peer (search {})
        return (reply, onNext (← get))) connection = some (reply, ⟨false, again, some new⟩)) :
    ∃ after fresh : Connection, exchange peer (search {}) connection = .ok reply after ∧
      Lived {} (after.release 0) ∧ (after.release 0).isOutOfStep = false ∧
      ofStream? {} 0 .loopback 0 after.session.stream = .ok fresh ∧
      (after.release 0).sending (search {}) = again ∧
      { fresh with lastSeqId := after.lastSeqId }.sending (search {}) = new := by
  obtain ⟨after, hexchange, hlook⟩ := exists_ok_of_look h
  simp only [onNext, Next.mk.injEq] at hlook
  obtain ⟨hstep, hagain, hnew⟩ := hlook
  split at hnew
  · next fresh hfresh =>
    have hlived : Lived {} (after.release 0) :=
      .released (.exchanged (.opened hopen) (plain_search {}) hsent (.inl ⟨_, hexchange⟩)) 0
    exact ⟨after, fresh, hexchange, hlived, hstep, hfresh, hagain, Option.some.inj hnew⟩
  · cases hnew

def searchRequest (seqId : UInt8) : Bytes :=
  [0, 0, 0, 40, 0x80, 1, 0, 1, 0, 0, 0, 6, 83, 101, 97, 114, 99, 104, 0, 0, 0, seqId, 11, 0, 1, 0, 0, 0, 0, 8, 0, 2, 0,
    0, 0, 0, 8, 0, 3, 0, 0, 0, 0, 0]

def compactRequest : Bytes :=
  [0, 0, 0, 17, 0x82, 0x21, 2, 6, 83, 101, 97, 114, 99, 104, 0x18, 0, 0x15, 0, 0x15, 0, 0]

/-- After a reply in the configured encoding, the next request is that of a new connection. -/
theorem lived_sendsAsNew_search : ∃ after fresh : Connection, Lived {} (after.release 0) ∧
    SendsAsNew {} (search {}) (after.release 0) ∧ (after.release 0).isOutOfStep = false ∧
    ofStream? {} 0 .loopback 0 after.session.stream = .ok fresh ∧
    (after.release 0).sending (search {}) = (none, searchRequest 1 ++ searchRequest 2) ∧
    { fresh with lastSeqId := after.lastSeqId }.sending (search {}) = (none, searchRequest 1 ++ searchRequest 2) := by
  obtain ⟨connection, asked, hopen, hsent, hrun⟩ : ∃ connection asked : Connection,
      ofStream? {} 0 .loopback 0 .connected = .ok connection ∧ sendRequest (search {}) connection = .ok () asked ∧
      EStateM.run' (do
        let reply ← exchange (Stream.push · (searchReply 40)) (search {})
        return (reply, onNext (← get))) connection = some (some ⟨["r1"], 7⟩,
          ⟨false, (none, searchRequest 1 ++ searchRequest 2), some (none, searchRequest 1 ++ searchRequest 2)⟩) :=
    ⟨_, _, rfl, rfl, by decide +kernel⟩
  obtain ⟨after, fresh, -, hlived, hstep, hfresh, hagain, hnew⟩ := exists_next hopen hsent hrun
  exact ⟨after, fresh, hlived, lived_sendsAsNew hlived (plain_search {}).gathers, hstep, hfresh, hagain, hnew⟩

/-- After a reply in the compact encoding, a connection whose settings name the binary encoding is kept, and writes its
next request in the compact encoding, where a new connection writes it in the binary one. -/
theorem sending_after_compact_reply : ∃ connection after fresh : Connection,
    ofStream? {} 0 .loopback 0 .connected = .ok connection ∧
    exchange (Stream.push · compactReply) (search {}) connection = .ok (some ⟨["r1"], 7⟩) after ∧
    Lived {} (after.release 0) ∧ (after.release 0).isOutOfStep = false ∧
    ofStream? {} 0 .loopback 0 after.session.stream = .ok fresh ∧
    (after.release 0).sending (search {}) = (none, searchRequest 1 ++ compactRequest) ∧
    { fresh with lastSeqId := after.lastSeqId }.sending (search {}) = (none, searchRequest 1 ++ searchRequest 2) := by
  obtain ⟨connection, asked, hopen, hsent, hrun⟩ : ∃ connection asked : Connection,
      ofStream? {} 0 .loopback 0 .connected = .ok connection ∧ sendRequest (search {}) connection = .ok () asked ∧
      EStateM.run' (do
        let reply ← exchange (Stream.push · compactReply) (search {})
        return (reply, onNext (← get))) connection = some (some ⟨["r1"], 7⟩,
          ⟨false, (none, searchRequest 1 ++ compactRequest), some (none, searchRequest 1 ++ searchRequest 2)⟩) :=
    ⟨_, _, rfl, rfl, by decide +kernel⟩
  obtain ⟨after, fresh, hexchange, hlived, hstep, hfresh, hagain, hnew⟩ := exists_next hopen hsent hrun
  exact ⟨connection, after, fresh, hopen, hexchange, hlived, hstep, hfresh, hagain, hnew⟩

end Connection
end RpcWire
