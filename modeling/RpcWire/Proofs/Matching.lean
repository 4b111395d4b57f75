import RpcWire.Proofs.Exchanging
import RpcWire.Proofs.Faultless
import RpcWire.Proofs.Receiving
import RpcWire.Search.Service

/-! Which answers a connection takes for the answer to its request. A reply has to name the method and the number of the
request. A fault has to do neither, since a fault is thrown before anybody looks at the head that it came with. -/
namespace RpcWire

theorem ClientError.ofWire_ne_fault {err : WireError} (h : err.Plain) (fault : Fault) : ofWire err ≠ .fault fault := by
  cases err
  case fault answer => exact absurd rfl (h answer)
  case io cause =>
    simp only [ofWire]
    split <;> rintro ⟨⟩
  all_goals rintro ⟨⟩

namespace Session

def readHead : SessionM MessageHeader := do
  negotiateRead
  resetCodec
  onWire WireM.readMessageBegin

private theorem faultless_switchTo (encoding : Encoding) : Faultless (switchTo encoding) := by
  refine .get fun session => .ite (.pure ()) ?_
  cases encoding with
  | binary => exact .modify _
  | compact => exact .modify _
  | json => exact .throw nofun
  | reserved id => exact .throw nofun

theorem faultless_negotiateRead : Faultless negotiateRead := by
  refine .get fun _ => .get fun session => ?_
  split
  · refine Fails.bind (.onPart (Endpoint.faultless_onChannel (Channel.fails_peek 1))) fun _ => .get fun after => ?_
    split
    · exact faultless_switchTo _
    · exact faultless_switchTo _
  · refine .ite (Fails.bind (.onPart (Endpoint.faultless_onChannel (Channel.fails_peek 2))) fun start => ?_)
      (faultless_switchTo _)
    split
    · next err hdetect => exact .throw (plain_of_detect hdetect)
    · exact faultless_switchTo _

private theorem faultless_readHead : Faultless readHead :=
  faultless_negotiateRead.seq (Fails.seq (.get fun _ => .modify _) (.onPart WireM.faultless_messageBegin))

/-- Once the head is read, its kind decides what is read on. -/
theorem readMessageBegin_of_head {session after : Session} {header : MessageHeader}
    (h : readHead session = .ok header after) :
    readMessageBegin session = if header.kind = .exception then
        match onWire (Fault.read after.config.recursionLimit) after with
        | .ok fault last => .error (.fault fault) last
        | .error err last => .error err last
      else .ok header after := by
  rw [readHead] at h
  rw [readMessageBegin_eq, bind_of_ok h]
  split
  · refine (bind_of_ok (get_ok after)).trans ?_
    cases hfault : onWire (Fault.read after.config.recursionLimit) after with
    | ok fault last => exact bind_of_ok hfault
    | error err last => exact bind_of_error hfault
  · rfl

theorem readMessageBegin_of_head_error {session after : Session} {err : WireError}
    (h : readHead session = .error err after) : readMessageBegin session = .error err after := by
  rw [readMessageBegin_eq]
  exact bind_of_error h

end Session

namespace Connection
variable {α : Type} {call : Call α} {connection asked : Connection}

/-- Why a message that is not a fault does not answer a request: its kind, its name, its number, in this order. -/
def mismatch (call : Call α) (seqId : Int32) (header : MessageHeader) : ClientError :=
  if header.kind ≠ .reply then .unexpectedKind header.kind
  else if header.name ≠ call.method then .wrongMethodName call.method header.name
  else .sequenceMismatch seqId header.seqId

theorem keepsConnection_mismatch (seqId : Int32) (header : MessageHeader) :
    (mismatch call seqId header).keepsConnection = false := by
  unfold mismatch
  split
  · rfl
  · split <;> rfl

/-- What comes of a message that answers the request, and of one that does not. -/
theorem receiveReply_of_head {session : Session} {header : MessageHeader}
    (h : Session.readHead asked.session = .ok header session) (hkind : header.kind ≠ .exception) :
    receiveReply call asked =
      if header = ⟨call.method, .reply, asked.lastSeqId⟩ then
        onSession .ofWire (Session.onWire call.result) { asked with session }
      else .error (mismatch call asked.lastSeqId header) { asked with session } := by
  have hbegin : onSession .ofWire Session.readMessageBegin asked = .ok header { asked with session } := by
    rw [onSession, Session.readMessageBegin_of_head h, if_neg hkind]
  rw [receiveReply, bind_of_ok (get_ok asked), bind_of_ok hbegin, mismatch]
  obtain ⟨name, kind, seqId⟩ := header
  by_cases hreply : kind = .reply
  · by_cases hname : name = call.method
    · by_cases hseqId : seqId = asked.lastSeqId
      · simp [hreply, hname, hseqId]
      · simp [hreply, hname, hseqId]
        rfl
    · simp [hreply, hname]
      rfl
  · simp [hreply]
    rfl

private theorem receiveReply_of_error {session : Session} {err : WireError}
    (h : Session.readMessageBegin asked.session = .error err session) :
    receiveReply call asked = .error (.ofWire err) { asked with session } := by
  have hbegin : onSession .ofWire Session.readMessageBegin asked = .error (.ofWire err) { asked with session } := by
    rw [onSession, h]
  rw [receiveReply, bind_of_ok (get_ok asked)]
  exact bind_of_error hbegin

/-- A fault is the answer, whatever head it came with. -/
theorem receiveReply_of_fault {session : Session} {header : MessageHeader}
    (h : Session.readHead asked.session = .ok header session) (hkind : header.kind = .exception) :
    receiveReply call asked =
      match Session.onWire (Fault.read session.config.recursionLimit) session with
      | .ok fault last => .error (.fault fault) { asked with session := last }
      | .error err last => .error (.ofWire err) { asked with session := last } := by
  have hbegin := Session.readMessageBegin_of_head h
  rw [if_pos hkind] at hbegin
  cases hfault : Session.onWire (Fault.read session.config.recursionLimit) session with
  | ok fault last =>
    rw [hfault] at hbegin
    exact receiveReply_of_error hbegin
  | error err last =>
    rw [hfault] at hbegin
    exact receiveReply_of_error hbegin

/-- Once the request is out, the exchange is the reading of the reply. -/
theorem exchange_of_sent (htwoWay : call.oneway = false) (hsent : sendRequest call connection = .ok () asked)
    (peer : Stream → Stream) :
    exchange peer call connection = match receiveReply call (asked.mapStream peer) with
      | .ok value after => .ok (some value) after
      | .error err after => .error err (if err.keepsConnection then after else after.markFailed) := by
  have htry : tryExchange peer call connection =
      (receiveReply call >>= fun value => pure (some value)) (asked.mapStream peer) := by
    rw [tryExchange, bind_of_ok hsent, bind_of_ok (modify_ok asked (mapStream peer)), htwoWay]
    rfl
  rw [exchange, htry]
  cases hreply : receiveReply call (asked.mapStream peer) with
  | ok value after => rw [bind_of_ok hreply]; rfl
  | error err after => rw [bind_of_error hreply]

/-- A request goes out under the next number of its connection, which it marks neither as failed nor as sound. -/
theorem of_sent (hsent : sendRequest call connection = .ok () asked) :
    asked.lastSeqId = (connection.nextHeader call).seqId ∧ asked.failed = connection.failed := by
  rw [sendRequest_eq] at hsent
  split at hsent
  · cases hsent
  · rw [onSession] at hsent
    split at hsent
    · cases hsent
      exact ⟨rfl, rfl⟩
    · cases hsent

/-- What can come of an exchange whose request is out, and when: the answer is the reply to the request, a fault,
another message, or no message at all. Only the first two leave the connection unmarked. -/
inductive Answer (call : Call α) (seqId : Int32) (answered : Connection) :
    EStateM.Result ClientError Connection (Option α) → Prop where
  | reply {session last : Session} {value : α}
    (head : Session.readHead answered.session = .ok ⟨call.method, .reply, seqId⟩ session)
    (result : Session.onWire call.result session = .ok value last) :
    Answer call seqId answered (.ok (some value) { answered with session := last })
  | fault {session last : Session} {header : MessageHeader} {fault : Fault}
    (head : Session.readHead answered.session = .ok header session) (kind : header.kind = .exception)
    (body : Session.onWire (Fault.read session.config.recursionLimit) session = .ok fault last) :
    Answer call seqId answered (.error (.fault fault) { answered with session := last })
  | other {session : Session} {header : MessageHeader}
    (head : Session.readHead answered.session = .ok header session) (kind : header.kind ≠ .exception)
    (differs : header ≠ ⟨call.method, .reply, seqId⟩) :
    Answer call seqId answered (.error (mismatch call seqId header) { answered with session, failed := true })
  | malformed {session : Session} {err : WireError} (plain : err.Plain) :
    Answer call seqId answered (.error (.ofWire err) { answered with session, failed := true })

theorem keepsConnection_ofWire {err : WireError} (h : err.Plain) :
    (ClientError.ofWire err).keepsConnection = false := by
  cases hwire : ClientError.ofWire err with
  | fault fault => exact absurd hwire (ClientError.ofWire_ne_fault h fault)
  | _ => rfl

theorem answer_exchange (htwoWay : call.oneway = false) (hresult : Faultless call.result)
    (hsent : sendRequest call connection = .ok () asked) (peer : Stream → Stream) :
    Answer call (connection.nextHeader call).seqId (asked.mapStream peer) (exchange peer call connection) := by
  have hseqId : (connection.nextHeader call).seqId = (asked.mapStream peer).lastSeqId := (of_sent hsent).1.symm
  rw [exchange_of_sent htwoWay hsent, hseqId]
  generalize asked.mapStream peer = answered
  -- Three readings can fail: that of the head, of a fault and of the result.
  have hmalformed {err : WireError} {session : Session} (hplain : err.Plain) :
      Answer call answered.lastSeqId answered (match (.error (.ofWire err) { answered with session } :
        EStateM.Result ClientError Connection α) with
          | .ok value after => .ok (some value) after
          | .error err after => .error err (if err.keepsConnection then after else after.markFailed)) := by
    simp only [keepsConnection_ofWire hplain, Bool.false_eq_true, if_false]
    exact .malformed hplain
  cases hhead : Session.readHead answered.session with
  | error err session =>
    rw [receiveReply_of_error (Session.readMessageBegin_of_head_error hhead)]
    exact hmalformed (Session.faultless_readHead hhead)
  | ok header session =>
    by_cases hkind : header.kind = .exception
    · rw [receiveReply_of_fault hhead hkind]
      cases hfault : Session.onWire (Fault.read session.config.recursionLimit) session with
      | ok fault last => exact .fault hhead hkind hfault
      | error err last => exact hmalformed (Fails.onPart (Fault.faultless_read _) hfault)
    · rw [receiveReply_of_head hhead hkind]
      by_cases hanswers : header = ⟨call.method, .reply, answered.lastSeqId⟩
      · rw [if_pos hanswers, onSession]
        cases hvalue : Session.onWire call.result session with
        | ok value last => exact .reply (hanswers ▸ hhead) hvalue
        | error err last => exact hmalformed (Fails.onPart hresult hvalue)
      · rw [if_neg hanswers]
        simp only [keepsConnection_mismatch, Bool.false_eq_true, if_false]
        exact .other hhead hkind hanswers

/-- A connection is kept after an answer only if the answer is the reply to its request, with the name of the method and
the number of the request, or a fault, whatever name and number that one came with. After anything else it is marked as
failed. -/
theorem exchange_keeps_iff (htwoWay : call.oneway = false) (hresult : Faultless call.result)
    (hsent : sendRequest call connection = .ok () asked) (peer : Stream → Stream) :
    (∀ reply after, exchange peer call connection = .ok reply after → after.failed = connection.failed ∧
      ∃ value session, reply = some value ∧
        Session.readHead (asked.mapStream peer).session =
          .ok ⟨call.method, .reply, (connection.nextHeader call).seqId⟩ session ∧
        Session.onWire call.result session = .ok value after.session) ∧
    (∀ fault after, exchange peer call connection = .error (.fault fault) after ↔
      ∃ header session last, Session.readHead (asked.mapStream peer).session = .ok header session ∧
        header.kind = .exception ∧
        Session.onWire (Fault.read session.config.recursionLimit) session = .ok fault last ∧
        after = { asked.mapStream peer with session := last }) ∧
    (∀ err after, exchange peer call connection = .error err after → (∀ fault, err ≠ .fault fault) →
      after.failed = true) ∧
    ∀ header session, Session.readHead (asked.mapStream peer).session = .ok header session →
      header.kind ≠ .exception → header ≠ ⟨call.method, .reply, (connection.nextHeader call).seqId⟩ →
      exchange peer call connection = .error (mismatch call (connection.nextHeader call).seqId header)
        { asked.mapStream peer with session, failed := true } := by
  have hanswer := answer_exchange htwoWay hresult hsent peer
  obtain ⟨hseqId, hfailed⟩ := of_sent hsent
  refine ⟨fun reply after h => ?_, fun fault after => ⟨fun h => ?_, ?_⟩, fun err after h hother => ?_, ?_⟩
  · rw [h] at hanswer
    cases hanswer with
    | reply head result => exact ⟨hfailed, _, _, rfl, head, result⟩
  · rw [h] at hanswer
    generalize herr : ClientError.fault fault = err at hanswer
    cases hanswer with
    | fault head kind body =>
      cases herr
      exact ⟨_, _, _, head, kind, body, rfl⟩
    | @other _ header =>
      have hkeeps := @keepsConnection_mismatch _ call (connection.nextHeader call).seqId header
      rw [← herr] at hkeeps
      cases hkeeps
    | malformed plain => exact absurd herr.symm (ClientError.ofWire_ne_fault plain fault)
  · rintro ⟨header, session, last, hhead, hkind, hbody, rfl⟩
    rw [exchange_of_sent htwoWay hsent, receiveReply_of_fault hhead hkind, hbody]
    rfl
  · rw [h] at hanswer
    cases hanswer with
    | fault head kind body => exact absurd rfl (hother _)
    | other => rfl
    | malformed => rfl
  · intro header session hhead hkind hdiffers
    have hnumber : (connection.nextHeader call).seqId = (asked.mapStream peer).lastSeqId := hseqId.symm
    rw [hnumber] at hdiffers ⊢
    rw [exchange_of_sent htwoWay hsent, receiveReply_of_head hhead hkind, if_neg hdiffers]
    simp only [keepsConnection_mismatch, Bool.false_eq_true, if_false]
    rfl

def search (request : Search.Request) : Call Search.Response where
  method := Search.methodName
  arguments := request.write
  result := Search.Response.read 64

/-- The reply to the first request of a connection, in a frame that announces so many octets; there are 40. -/
def searchReply (announced : UInt8) : Bytes :=
  [0, 0, 0, announced, 0x80, 1, 0, 2, 0, 0, 0, 6, 83, 101, 97, 114, 99, 104, 0, 0, 0, 1, 15, 0, 1, 11, 0, 0, 0, 1, 0,
    0, 0, 2, 114, 49, 8, 0, 2, 0, 0, 0, 7, 0]

/-- A new connection is kept after the reply to its first request. -/
theorem exchange_keeps_search : ∃ connection asked after : Connection,
    ofStream? {} 0 .loopback 0 .connected = .ok connection ∧ sendRequest (search {}) connection = .ok () asked ∧
    exchange (Stream.push · (searchReply 40)) (search {}) connection = .ok (some ⟨["r1"], 7⟩) after ∧
    after.failed = false := by
  obtain ⟨connection, asked, hopen, hsent, hreply⟩ : ∃ connection asked : Connection,
      ofStream? {} 0 .loopback 0 .connected = .ok connection ∧ sendRequest (search {}) connection = .ok () asked ∧
      (exchange (Stream.push · (searchReply 40)) (search {})).run' connection = some (some ⟨["r1"], 7⟩) :=
    ⟨_, _, rfl, rfl, by decide +kernel⟩
  obtain ⟨after, hexchange⟩ := exists_ok_of_run' hreply
  have hkept := (exchange_keeps_iff rfl (Search.Response.faultless_read 64) hsent _).1 _ after hexchange
  cases hopen
  exact ⟨_, asked, after, rfl, hsent, hexchange, hkept.1⟩

def foreignFault : Bytes :=
  [0, 0, 0, 33, 0x80, 1, 0, 3, 0, 0, 0, 5, 79, 116, 104, 101, 114, 0, 0, 0, 99, 11, 0, 1, 0, 0, 0, 1, 120, 8, 0, 2,
    0, 0, 0, 6, 0]

/-- A new connection is kept after a fault that names another method and another number than its first request did. -/
theorem exchange_keeps_foreign_fault : ∃ connection asked after : Connection,
    ofStream? {} 0 .loopback 0 .connected = .ok connection ∧ sendRequest (search {}) connection = .ok () asked ∧
    (search {}).method = "Search" ∧ asked.lastSeqId = 1 ∧
    (∃ session, Session.readHead (asked.mapStream (Stream.push · foreignFault)).session =
      .ok ⟨"Other", .exception, 99⟩ session) ∧
    exchange (Stream.push · foreignFault) (search {}) connection = .error (.fault ⟨.internalError, "x"⟩) after ∧
    after.failed = false := by
  obtain ⟨connection, asked, hopen, hsent, hseqId, hhead, hexchange⟩ : ∃ connection asked : Connection,
      ofStream? {} 0 .loopback 0 .connected = .ok connection ∧ sendRequest (search {}) connection = .ok () asked ∧
      asked.lastSeqId = 1 ∧
      Session.readHead.run' (asked.mapStream (Stream.push · foreignFault)).session = some ⟨"Other", .exception, 99⟩ ∧
      (match exchange (Stream.push · foreignFault) (search {}) connection with
        | .ok _ _ => none
        | .error err after => some (err, after.failed)) = some (.fault ⟨.internalError, "x"⟩, false) :=
    ⟨_, _, rfl, rfl, rfl, by decide +kernel, by decide +kernel⟩
  obtain ⟨session, hhead⟩ := exists_ok_of_run' hhead
  split at hexchange
  · cases hexchange
  · next err after hrun =>
    simp only [Option.some.injEq, Prod.mk.injEq] at hexchange
    obtain ⟨rfl, hfailed⟩ := hexchange
    exact ⟨connection, asked, after, hopen, hsent, rfl, hseqId, ⟨session, hhead⟩, hrun, hfailed⟩

end Connection
end RpcWire
