import RpcWire.Proofs.Faultless
import RpcWire.Proofs.Sending

/-! What the layer below a channel has taken of the octets that the other side has sent. Between two reads of the
channel, it has taken whole frames, and the front of another one if some of that remains; or whole envelopes, of the
last of which there may be more than the channel has read. -/
namespace RpcWire

namespace Stream

private theorem unread_read {n : Nat} {stream after : Stream} {got : Bytes}
    (h : read n stream = .ok got after) :
    stream.unread = got ++ after.unread := by
  unfold read at h
  split at h
  · cases h
  · cases h
    exact (List.take_append_drop _ _).symm

private theorem length_read_le {n : Nat} {stream after : Stream} {got : Bytes}
    (h : read n stream = .ok got after) :
    got.length ≤ n := by
  have hsize : stream.readSize n ≤ n := by
    unfold readSize
    split <;> omega
  unfold read at h
  split at h
  · cases h
  · cases h
    exact Nat.le_trans (List.length_take_le _ _) hsize

theorem unread_readFull {n : Nat} {stream after : Stream} {got : Bytes} (h : readFull n stream = .ok got after) :
    stream.unread = got ++ after.unread := by
  fun_induction readFull n stream generalizing got after with
  | case1 => cases h; rfl
  | case2 => cases h
  | case3 n stream hn after' hread => cases h; exact unread_read hread
  | case4 => cases h
  | case5 n stream hn first more mid hread rest last hrest ih =>
    cases h
    rw [unread_read hread, ih hrest, List.append_assoc]

theorem length_readFull_le {n : Nat} {stream after : Stream} {got : Bytes} (h : readFull n stream = .ok got after) :
    got.length ≤ n := by
  have hunread := unread_readFull h
  rcases Nat.le_total n stream.unread.length with hle | hshort
  · rw [readFull_front hle] at h
    cases h
    exact List.length_take_le n _
  · rw [hunread, List.length_append] at hshort
    omega

/-- A length that was read stood at the front of the stream. -/
theorem unread_readLength {stream after : Stream} {length : UInt32} (h : readLength stream = .ok (some length) after) :
    stream.unread = Bytes.bigEndian 4 length.toNat ++ after.unread := by
  obtain ⟨bytes, mid, hfull, hrest⟩ := ok_of_bind_ok h
  have hunread := unread_readFull hfull
  split at hrest
  · cases hrest
  · split at hrest
    · cases hrest
    · next hlong =>
      cases hrest
      -- Four octets are there, so the read that got as many got no more.
      have hlength : bytes.length = 4 := Nat.le_antisymm (length_readFull_le hfull) (Nat.le_of_not_lt hlong)
      have hlt : bytes.toNat < 2 ^ 32 := by
        have := Bytes.toNat_lt bytes
        rwa [hlength] at this
      have hfront := Bytes.bigEndian_toNat bytes
      rw [hlength] at hfront
      rw [hunread, UInt32.toNat_ofNat_of_lt' hlt, hfront]

/-- At the end of the stream, looking for a length takes nothing. -/
theorem unread_readLength_none {stream after : Stream} (h : readLength stream = .ok none after) :
    stream.unread = after.unread := by
  obtain ⟨bytes, mid, hfull, hrest⟩ := ok_of_bind_ok h
  have hunread := unread_readFull hfull
  split at hrest
  · next hempty =>
    cases hrest
    rw [hunread, hempty, List.nil_append]
  · split at hrest
    · cases hrest
    · cases hrest

end Stream

namespace Framed

def Whole (octets : Bytes) : Prop :=
  ∃ frames : List Bytes, (∀ frame ∈ frames, frame.length < 2 ^ 32) ∧ octets = frames.flatMap encode

private theorem whole_nil : Whole [] := ⟨[], nofun, rfl⟩

private theorem Whole.concat {octets frame : Bytes} (h : Whole octets) (hframe : frame.length < 2 ^ 32) :
    Whole (octets ++ encode frame) := by
  obtain ⟨frames, hfit, rfl⟩ := h
  refine ⟨frames ++ [frame], ?_, by simp⟩
  simpa [or_imp, forall_and] using ⟨hfit, hframe⟩

/-- Two frames at the front of the same octets are the same. -/
theorem encode_append_inj {frame frame' later later' : Bytes} (hframe : frame.length < 2 ^ 32)
    (hframe' : frame'.length < 2 ^ 32) (h : encode frame ++ later = encode frame' ++ later') :
    frame = frame' ∧ later = later' := by
  simp only [encode, List.append_assoc] at h
  obtain ⟨hsize, hrest⟩ := List.append_inj h (by simp)
  have hlength : frame.length = frame'.length := by
    have := congrArg Bytes.toNat hsize
    rwa [Bytes.toNat_bigEndian_of_lt (by exact hframe), Bytes.toNat_bigEndian_of_lt (by exact hframe')] at this
  exact List.append_inj hrest hlength

/-- A frame with its end missing, after whole frames, does not make whole frames. -/
theorem not_whole_of_cut {octets front : Bytes} {size : Nat} (h : Whole octets) (hsize : size < 2 ^ 32)
    (hcut : front.length < size) : ¬Whole (octets ++ (Bytes.bigEndian 4 size ++ front)) := by
  obtain ⟨frames, hfit, rfl⟩ := h
  rintro ⟨others, hothers, hsame⟩
  -- The frames in front are cancelled one by one; then a length stands first that what follows does not reach.
  induction frames generalizing others with
  | nil =>
    cases others with
    | nil =>
      have := congrArg List.length hsame
      simp at this
    | cons other rest =>
      obtain ⟨hother, -⟩ := List.forall_mem_cons.mp hothers
      simp only [List.flatMap_nil, List.nil_append, List.flatMap_cons, encode, List.append_assoc] at hsame
      obtain ⟨hhead, hbody⟩ := List.append_inj hsame (by simp)
      have hlength : size = other.length := by
        have := congrArg Bytes.toNat hhead
        rwa [Bytes.toNat_bigEndian_of_lt (by exact hsize), Bytes.toNat_bigEndian_of_lt (by exact hother)] at this
      have := congrArg List.length hbody
      rw [List.length_append] at this
      omega
  | cons frame frames ih =>
    obtain ⟨hframe, hframes⟩ := List.forall_mem_cons.mp hfit
    cases others with
    | nil =>
      have := congrArg List.length hsame
      simp [encode] at this
    | cons other rest =>
      obtain ⟨hother, hrest⟩ := List.forall_mem_cons.mp hothers
      simp only [List.flatMap_cons, List.append_assoc] at hsame
      exact ih hframes rest hrest (encode_append_inj hframe hother hsame).2

/-- What is taken of the octets that were sent, and what is unread: whole frames, and the front of another one if some
of that remains. -/
inductive Taken (sent : Bytes) (layer : Framed) : Prop where
  | between {taken : Bytes} (whole : Whole taken) (hsent : sent = taken ++ layer.stream.unread)
    (hremaining : layer.remaining = 0)
  | inside {taken front : Bytes} (whole : Whole taken) (hsize : front.length + layer.remaining < 2 ^ 32)
    (hsent : sent = taken ++ (Bytes.bigEndian 4 (front.length + layer.remaining) ++ front) ++ layer.stream.unread)
    (hremaining : layer.remaining ≠ 0)

variable {sent : Bytes} {layer entered after : Framed}

/-- With nothing unread, a frame is partly read exactly if what was sent stops inside it. -/
theorem Taken.remaining_iff (h : Taken sent layer) (hunread : layer.stream.unread = []) :
    layer.remaining = 0 ↔ Whole sent := by
  cases h with
  | between whole hsent hremaining =>
    rw [hunread, List.append_nil] at hsent
    exact ⟨fun _ => hsent ▸ whole, fun _ => hremaining⟩
  | inside whole hsize hsent hremaining =>
    rw [hunread, List.append_nil] at hsent
    refine ⟨fun hzero => absurd hzero hremaining, fun hwhole => ?_⟩
    rw [hsent] at hwhole
    exact absurd hwhole (not_whole_of_cut whole hsize (by omega))

/-- Nothing but the frame being read and the stream matters. -/
theorem Taken.congr (h : Taken sent layer) (hunread : after.stream.unread = layer.stream.unread)
    (hremaining : after.remaining = layer.remaining) : Taken sent after := by
  cases h with
  | between whole hsent hzero => exact .between whole (hunread ▸ hsent) (hremaining ▸ hzero)
  | inside whole hsize hsent hmore =>
    rw [← hremaining] at hsize hsent hmore
    exact .inside whole hsize (hunread ▸ hsent) hmore

theorem Taken.await {more : Bool} (h : Taken sent layer) (hrun : await layer = .ok more entered) :
    Taken sent entered := by
  fun_induction Framed.await layer with
  | case1 layer hmore => cases hrun; exact h
  | case2 => cases hrun
  | case3 layer hnone stream hread =>
    cases hrun
    exact h.congr (Stream.unread_readLength_none hread).symm rfl
  | case4 => cases hrun
  | case5 layer hnone length stream hread hfit ih =>
    refine ih ?_ hrun
    cases h with
    | inside _ _ _ hremaining => exact absurd hremaining (by simpa using hnone)
    | between whole hsent hremaining =>
      rw [Stream.unread_readLength hread, ← List.append_assoc] at hsent
      -- An empty frame is over as soon as its length is read.
      by_cases hzero : length.toNat = 0
      · have hempty : encode [] = Bytes.bigEndian 4 length.toNat := by rw [hzero]; rfl
        exact .between (hempty ▸ @Whole.concat _ [] whole (by decide)) hsent hzero
      · refine @inside _ _ _ [] whole ?_ ?_ hzero
        · simpa using length.toNat_lt
        · simpa using hsent

theorem Taken.read {n : Nat} {got : Bytes} (hn : 0 < n) (h : Taken sent layer) (hrun : read n layer = .ok got after) :
    Taken sent after := by
  rw [read_eq hn] at hrun
  cases hawait : Framed.await layer with
  | error err entered => rw [hawait] at hrun; cases hrun
  | ok more entered =>
    have htaken := h.await hawait
    rw [hawait] at hrun
    cases more with
    | false => cases hrun; exact htaken
    | true =>
      have hmore := remaining_of_await hawait
      cases htaken with
      | between _ _ hremaining => exact absurd hremaining hmore
      | @inside taken front whole hsize hsent _ =>
        simp only at hrun
        split at hrun
        · cases hrun
        · cases hrun
        · next first rest stream hread =>
          cases hrun
          have hle : (first :: rest).length ≤ entered.remaining :=
            Nat.le_trans (Stream.length_read_le hread) (Nat.min_le_right _ _)
          have hframe : (front ++ first :: rest).length + (entered.remaining - (first :: rest).length) =
              front.length + entered.remaining := by
            rw [List.length_append]
            omega
          rw [Stream.unread_read hread] at hsent
          -- With its last octets read, the frame is one of the whole ones.
          by_cases hlast : entered.remaining - (first :: rest).length = 0
          · have hwhole : encode (front ++ first :: rest) =
                Bytes.bigEndian 4 (front.length + entered.remaining) ++ (front ++ first :: rest) := by
              rw [encode, ← hframe, hlast, Nat.add_zero]
            refine .between (@Whole.concat _ (front ++ first :: rest) whole (by omega)) ?_ hlast
            rw [hsent, hwhole]
            simp only [List.append_assoc]
          · refine @inside _ _ taken (front ++ first :: rest) whole (hframe ▸ hsize) ?_ hlast
            rw [hsent, hframe]
            simp only [List.append_assoc]

/-- Writing leaves alone what is being read. -/
theorem Taken.write {bytes : Bytes} (h : Taken sent layer) (hrun : write bytes layer = .ok () after) :
    Taken sent after := by
  obtain ⟨-, -, rfl⟩ := (write_okIff bytes layer).eq_of_ok hrun
  exact h.congr rfl rfl

theorem Taken.flush (h : Taken sent layer) (hrun : flush layer = .ok () after) : Taken sent after := by
  by_cases hpending : layer.pending = []
  · rw [Framed.flush, bind_of_ok (get_ok layer), if_pos hpending] at hrun
    cases hrun
    exact h
  · obtain ⟨-, -, rfl⟩ := (flush_okIff hpending).eq_of_ok hrun
    exact h.congr rfl rfl

end Framed

namespace Enveloped

def Carries (envelope payload : Bytes) : Prop :=
  ∃ head after, EnvelopeHead.accept envelope head = .ok payload after

/-- What is left of the last of some envelopes after so many reads of a channel. Envelopes stand on the stream as frames
do. -/
def Left (envelopes : Bytes) (reads : Nat) (payload : Bytes) : Prop :=
  ∃ earlier envelope carried, Framed.Whole earlier ∧ envelopes = earlier ++ Framed.encode envelope ∧
    Carries envelope carried ∧ payload = carried.drop (reads * Channel.readSize)

/-- What is taken of the octets that were sent, and what is unread: whole envelopes, of the last of which there may be
something left after at least so many reads. -/
structure Taken (least : Nat) (sent : Bytes) (layer : Enveloped) : Prop where
  envelopes : ∃ taken, Framed.Whole taken ∧ sent = taken ++ layer.stream.unread ∧
    (layer.payload = [] ∨ ∃ reads, least ≤ reads ∧ Left taken reads layer.payload)

variable {least : Nat} {sent : Bytes} {layer entered after : Enveloped}

/-- Nothing but the envelope being read and the stream matters. -/
theorem Taken.congr (h : Taken least sent layer) (hunread : after.stream.unread = layer.stream.unread)
    (hpayload : after.payload = layer.payload) : Taken least sent after := by
  obtain ⟨taken, whole, hsent, hleft⟩ := h
  exact ⟨taken, whole, hunread ▸ hsent, hpayload ▸ hleft⟩

/-- With nothing unread, the last envelope that was sent is the one that something may be left of. -/
theorem Taken.left (h : Taken least sent layer) (hunread : layer.stream.unread = []) :
    layer.payload = [] ∨ ∃ reads ≥ least, Left sent reads layer.payload := by
  obtain ⟨taken, -, hsent, hleft⟩ := h
  rw [hunread, List.append_nil] at hsent
  exact hsent ▸ hleft

/-- An envelope that was loaded stood at the front of the stream. -/
theorem unread_load {length : UInt32} (h : load length layer = .ok () after) :
    ∃ envelope : Bytes, envelope.length = length.toNat ∧ layer.stream.unread = envelope ++ after.stream.unread ∧
      Carries envelope after.payload := by
  unfold load at h
  split at h
  · cases h
  · split at h
    · cases h
    · split at h
      · cases h
      · next envelope stream hread =>
        split at h
        · cases h
        · next hlong =>
          split at h
          · cases h
          · next payload head haccept =>
            cases h
            have hunread := Stream.unread_readFull hread
            refine ⟨envelope, ?_, hunread, layer.head, head, haccept⟩
            have hle : length.toNat ≤ layer.stream.unread.length := by
              rw [hunread, List.length_append]
              omega
            rw [Stream.readFull_front hle] at hread
            cases hread
            rw [List.length_take]
            omega

theorem Taken.await {more : Bool} (h : Taken 0 sent layer) (hrun : await layer = .ok more entered) :
    Taken 0 sent entered ∧ (more = false → entered.payload = []) := by
  fun_induction Enveloped.await layer with
  | case1 layer hmore => cases hrun; exact ⟨h, by rintro ⟨⟩⟩
  | case2 => cases hrun
  | case3 layer hnone stream hread =>
    cases hrun
    exact ⟨h.congr (Stream.unread_readLength_none hread).symm rfl, fun _ => by simpa using hnone⟩
  | case4 => cases hrun
  | case5 layer hnone length stream hread env hload ih =>
    refine ih ?_ hrun
    obtain ⟨taken, whole, hsent, -⟩ := h
    obtain ⟨envelope, hlength, hunread, hcarries⟩ := unread_load hload
    have hencode : Framed.encode envelope = Bytes.bigEndian 4 length.toNat ++ envelope := by
      rw [Framed.encode, hlength]
    refine ⟨taken ++ Framed.encode envelope, whole.concat (by rw [hlength]; exact length.toNat_lt), ?_, ?_⟩
    · rw [hsent, Stream.unread_readLength hread, hunread, hencode]
      simp only [List.append_assoc]
    · exact .inr ⟨0, Nat.le_refl 0, taken, envelope, _, whole, rfl, hcarries, by simp⟩

/-- One more read of the channel. -/
theorem Taken.read {got : Bytes} (h : Taken 1 sent layer) (hrun : read Channel.readSize layer = .ok got after) :
    Taken 1 sent after := by
  have hzero : Taken 0 sent layer := by
    obtain ⟨taken, whole, hsent, hleft⟩ := h
    exact ⟨taken, whole, hsent, hleft.imp_right fun ⟨reads, _, hreads⟩ => ⟨reads, Nat.zero_le _, hreads⟩⟩
  rw [read_eq (by decide)] at hrun
  cases hawait : Enveloped.await layer with
  | error err entered => rw [hawait] at hrun; cases hrun
  | ok more entered =>
    obtain ⟨⟨taken, whole, hsent, hleft⟩, hnone⟩ := hzero.await hawait
    rw [hawait] at hrun
    cases more with
    | false => cases hrun; exact ⟨taken, whole, hsent, .inl (hnone rfl)⟩
    | true =>
      cases hrun
      refine ⟨taken, whole, hsent, hleft.imp (fun hempty => ?_) ?_⟩
      · rw [hempty, List.drop_nil]
      · rintro ⟨reads, -, earlier, envelope, carried, hearlier, htaken, hcarries, hpayload⟩
        refine ⟨reads + 1, Nat.le_add_left 1 reads, earlier, envelope, carried, hearlier, htaken, hcarries, ?_⟩
        rw [hpayload, List.drop_drop, Nat.add_mul, Nat.one_mul]

theorem Taken.write {bytes : Bytes} (h : Taken least sent layer) (hrun : write bytes layer = .ok () after) :
    Taken least sent after := by
  cases hrun
  exact h.congr rfl rfl

theorem Taken.flush (h : Taken least sent layer) (hrun : flush layer = .ok () after) : Taken least sent after := by
  by_cases hpending : layer.pending = []
  · rw [Enveloped.flush, if_pos hpending] at hrun
    cases hrun
    exact h
  · obtain ⟨-, -, rfl⟩ := (flush_okIff hpending).eq_of_ok hrun
    exact h.congr rfl rfl

end Enveloped

namespace Transport

def Taken (sent : Bytes) : Transport → Prop
  | .raw _ => True
  | .framed layer => layer.Taken sent
  | .header layer => layer.Taken 1 sent

variable {sent : Bytes} {transport after : Transport}

theorem taken_ofStream (kind : TransportKind) (stream : Stream) (maxSize : UInt32) :
    (ofStream kind stream maxSize).Taken stream.unread := by
  cases kind with
  | raw => trivial
  | framed => exact .between Framed.whole_nil rfl rfl
  | header => exact ⟨[], Framed.whole_nil, rfl, .inl rfl⟩

/-- More is sent. -/
theorem Taken.more {more : Bytes} {stream : Stream} (h : transport.Taken sent)
    (hstream : stream.unread = transport.stream.unread ++ more) :
    (transport.withStream stream).Taken (sent ++ more) := by
  cases transport with
  | raw => trivial
  | framed layer =>
    have hunread : stream.unread = layer.stream.unread ++ more := hstream
    cases h with
    | between whole hsent hremaining =>
      refine .between whole ?_ hremaining
      rw [hsent, List.append_assoc, ← hunread]
    | inside whole hsize hsent hremaining =>
      refine .inside whole hsize ?_ hremaining
      rw [hsent, List.append_assoc, ← hunread]
  | header layer =>
    have hunread : stream.unread = layer.stream.unread ++ more := hstream
    obtain ⟨taken, whole, hsent, hleft⟩ := h
    refine ⟨taken, whole, ?_, hleft⟩
    rw [hsent, List.append_assoc, ← hunread]

theorem Taken.mapHead (f : EnvelopeHead → EnvelopeHead) (h : transport.Taken sent) :
    (transport.mapHead f).Taken sent := by
  cases transport with
  | raw => trivial
  | framed layer => exact h
  | header layer => exact Enveloped.Taken.congr h rfl rfl

/-- What keeps count below each layer keeps count below a channel. -/
theorem Taken.dispatch {α : Type} {value : α} {raw : StreamM α} {framed : FramedM α} {header : EnvelopedM α}
    (h : transport.Taken sent)
    (hframed : ∀ {layer after}, Framed.Taken sent layer → framed layer = .ok value after → after.Taken sent)
    (hheader : ∀ {layer after}, Enveloped.Taken 1 sent layer → header layer = .ok value after → after.Taken 1 sent)
    (hrun : dispatch raw framed header transport = .ok value after) : after.Taken sent := by
  cases transport with
  | raw stream =>
    rw [Transport.dispatch] at hrun
    obtain ⟨part, -, rfl⟩ := ok_of_onPart_ok hrun
    trivial
  | framed layer =>
    rw [Transport.dispatch] at hrun
    obtain ⟨part, hpart, rfl⟩ := ok_of_onPart_ok hrun
    exact hframed h hpart
  | header layer =>
    rw [Transport.dispatch] at hrun
    obtain ⟨part, hpart, rfl⟩ := ok_of_onPart_ok hrun
    exact hheader h hpart

theorem Taken.read {got : Bytes} (h : transport.Taken sent) (hrun : read Channel.readSize transport = .ok got after) :
    after.Taken sent :=
  h.dispatch (.read (by decide)) .read hrun

theorem Taken.write {bytes : Bytes} (h : transport.Taken sent) (hrun : write bytes transport = .ok () after) :
    after.Taken sent :=
  h.dispatch .write .write hrun

theorem Taken.flush (h : transport.Taken sent) (hrun : flush transport = .ok () after) : after.Taken sent :=
  h.dispatch .flush .flush hrun

end Transport

namespace Channel
variable {sent : Bytes}

private theorem taken_fill {n : Nat} {channel after : Channel} (h : channel.transport.Taken sent)
    (hrun : fill n channel = .ok () after) : after.transport.Taken sent := by
  fun_induction fill n channel with
  | case1 channel hle => cases hrun; exact h
  | case2 => cases hrun
  | case3 => cases hrun
  | case4 channel hle first more transport hread ih => exact ih (h.read hread) hrun

private theorem taken_flush {channel after : Channel} (h : channel.transport.Taken sent)
    (hrun : flush channel = .ok () after) :
    after.transport.Taken sent := by
  rw [flush, bind_of_ok (get_ok channel)] at hrun
  have hflush {channel : Channel} (h : channel.transport.Taken sent)
      (hrun : onTransport Transport.flush channel = .ok () after) : after.transport.Taken sent := by
    obtain ⟨part, hpart, rfl⟩ := ok_of_onPart_ok hrun
    exact h.flush hpart
  split at hrun
  · rw [bind_of_ok (modify_ok channel _)] at hrun
    obtain ⟨⟨⟩, middle, hwrite, hrest⟩ := ok_of_bind_ok hrun
    obtain ⟨part, hpart, rfl⟩ := ok_of_onPart_ok hwrite
    exact hflush (h.write hpart) hrest
  · exact hflush h hrun

/-- An action beside itself on one channel: as long as it does not fail, the octets sent are accounted for. -/
theorem tracks_taken {α : Type} {act : ChannelM α} {failed : Channel → Channel → Prop}
    (hkeeps : ∀ {channel value after}, channel.transport.Taken sent → act channel = .ok value after →
      after.transport.Taken sent) (hfails : Fails WireError.Plain act) :
    Tracks (fun channel channel' => channel = channel' ∧ channel.transport.Taken sent)
      (fun channel channel' => channel = channel' ∧ channel.transport.Taken sent) failed WireError.Plain act act := by
  rintro channel _ ⟨rfl, htaken⟩
  cases hrun : act channel with
  | ok value after => exact .ok ⟨rfl, hkeeps htaken hrun⟩
  | error err after => exact .stopped (hfails hrun)

def accounted (sent : Bytes) : TwoWay where
  near _ channel channel' := channel = channel' ∧ channel.transport.Taken sent
  stop := WireError.Plain
  widen _ h := h
  kind h := congrArg (·.transport.kind) h.1
  head? h := congrArg (·.transport.head?) h.1
  available h := .inl (congrArg available h.1)
  peek _ size := by
    refine tracks_taken (fun {channel value after} h hrun => ?_) (fails_peek size)
    obtain ⟨⟨⟩, middle, hfill, hrest⟩ := ok_of_bind_ok hrun
    cases hrest
    exact taken_fill h hfill
  read _ size _ := by
    refine tracks_taken (fun {channel value after} h hrun => ?_) (fails_read size)
    obtain ⟨⟨⟩, middle, hfill, hrest⟩ := ok_of_bind_ok hrun
    cases hrest
    exact @taken_fill sent _ _ middle h hfill
  write _ bytes := by
    refine tracks_taken (fun {channel value after} h hrun => ?_) (.modify _)
    cases hrun
    exact h
  flush _ := tracks_taken taken_flush faultless_flush
  mapHead f h := by
    obtain ⟨rfl, htaken⟩ := h
    exact ⟨rfl, htaken.mapHead f⟩

end Channel
end RpcWire
