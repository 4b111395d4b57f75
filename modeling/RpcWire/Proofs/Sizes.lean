import RpcWire.Proofs.Drawing.Values
import RpcWire.Proofs.Widths

/-! Parts of a message that have a size in front of them: runs of octets, texts, names of messages, maps and lists.
However the size is written, a reader judges it before it takes anything behind it. One that is negative or above the
limit ends the reading right there, and of what follows another one no more is taken than the size says. -/
namespace RpcWire

private theorem Utf8.encode_of_decode? {bytes : Bytes} {text : String} (h : decode? bytes = some text) :
    encode text = bytes := by
  rw [decode?, String.fromUTF8?] at h
  split at h
  · cases h
    rw [encode, String.toUTF8_eq_toByteArray]
    simp [String.fromUTF8]
  · cases h

namespace Endpoint
variable {κ α : Type} {limit : Nat} {size : Int32}

/-- Why a size is refused, if it is: it is negative, or above a limit other than zero. -/
def sizeFlaw (limit : Nat) (size : Int32) : Option WireError :=
  if size < 0 then some (.negativeSize size.toInt)
  else if 0 < limit ∧ limit < size.toInt.toNat then some (.sizeLimit size.toInt.toNat limit)
  else none

theorem within_of_sizeFlaw (h : sizeFlaw limit size = none) : Within limit size.toInt.toNat := by
  unfold sizeFlaw at h
  split at h
  · cases h
  · split at h
    · cases h
    · next hwithin =>
      rw [Within]
      omega

def judgeSize (limit : Nat) (size : Int32) : CodecM κ Nat :=
  match sizeFlaw limit size with
  | some err => throw err
  | none => pure size.toInt.toNat

theorem judgeSize_eq (limit : Nat) (size : Int32) : (judgeSize limit size : CodecM κ Nat) = do
    if size < 0 then throw (.negativeSize size.toInt)
    checkLimit size.toInt.toNat limit
    return size.toInt.toNat := by
  unfold judgeSize sizeFlaw checkLimit
  split_ifs <;> rfl

/-- For a number that is not negative, the limit is all there is to check. -/
theorem checkLimit_then (h : ¬size < 0) (next : Nat → CodecM κ α) : (do
    checkLimit size.toInt.toNat limit
    next size.toInt.toNat) = judgeSize limit size >>= next := by
  rw [judgeSize_eq, if_neg h]
  simp only [bind_assoc, pure_bind]

end Endpoint

/-! ## Reading so many octets at most -/

/-- The action takes at most so many octets and leaves the codec as it is; if it succeeds, the octets stand for its
result. -/
def Yields {κ α : Type} (act : CodecM κ α) (most : Nat) (Stands : Bytes → α → Prop) : Prop :=
  ∀ codec channel, ∃ taken last, channel.Consumes taken last ∧ taken.length ≤ most ∧
    ((∃ value, act ⟨codec, channel⟩ = .ok value ⟨codec, last⟩ ∧ Stands taken value) ∨
      ∃ err, act ⟨codec, channel⟩ = .error err ⟨codec, last⟩)

namespace Yields
variable {κ α β : Type} {act : CodecM κ α} {most : Nat} {Stands : Bytes → α → Prop}

theorem pure {value : α} (h : Stands [] value) : Yields (pure value : CodecM κ α) most Stands :=
  fun _ channel => ⟨[], channel, .refl channel, Nat.zero_le most, .inl ⟨value, rfl, h⟩⟩

theorem throw (err : WireError) : Yields (throw err : CodecM κ α) most Stands :=
  fun _ channel => ⟨[], channel, .refl channel, Nat.zero_le most, .inr ⟨err, rfl⟩⟩

theorem bind {next : α → CodecM κ β} {more total : Nat} {Stands' : Bytes → β → Prop} (h : Yields act most Stands)
    (htotal : most + more ≤ total)
    (hnext : ∀ taken value, Stands taken value → Yields (next value) more fun behind => Stands' (taken ++ behind)) :
    Yields (act >>= next) total Stands' := by
  intro codec channel
  obtain ⟨taken, middle, htaken, hlen, ⟨value, hact, hstands⟩ | ⟨err, hact⟩⟩ := h codec channel
  · obtain ⟨behind, last, hbehind, hlen', hrest⟩ := hnext taken value hstands codec middle
    refine ⟨taken ++ behind, last, htaken.trans hbehind, by rw [List.length_append]; omega, ?_⟩
    rw [bind_of_ok hact]
    exact hrest
  · exact ⟨taken, middle, htaken, by omega, .inr ⟨err, bind_of_error hact⟩⟩

theorem mono {Stands' : Bytes → α → Prop} (h : Yields act most Stands)
    (hstands : ∀ taken value, Stands taken value → Stands' taken value) : Yields act most Stands' := by
  intro codec channel
  obtain ⟨taken, last, htaken, hlen, ⟨value, hact, hvalue⟩ | hfailed⟩ := h codec channel
  · exact ⟨taken, last, htaken, hlen, .inl ⟨value, hact, hstands _ _ hvalue⟩⟩
  · exact ⟨taken, last, htaken, hlen, .inr hfailed⟩

/-- Whatever octets they were, the result was made so. -/
theorem map {f : α → β} {Made : β → Prop} (h : Yields act most Stands)
    (hmade : ∀ taken value, Stands taken value → Made (f value)) :
    Yields (do return f (← act)) most fun _ result => Made result :=
  h.bind (Nat.le_of_eq (Nat.add_zero most)) fun taken value hvalue => .pure (hmade taken value hvalue)

end Yields

namespace Endpoint
variable {κ : Type}

theorem yields_onChannel {α : Type} (n : Nat) (f : Bytes → α) :
    Yields (onChannel (do return f (← Channel.read n)) : CodecM κ α) n fun taken value =>
      taken.length = n ∧ value = f taken := by
  intro codec channel
  rcases channel.read_consumes n with ⟨bytes, last, hread, hlen, htaken⟩ | ⟨err, last, hread, htaken⟩
  · exact ⟨bytes, last, htaken, Nat.le_of_eq hlen, .inl ⟨f bytes, channel_ok (bind_of_ok hread), hlen, rfl⟩⟩
  · exact ⟨[], last, htaken, Nat.zero_le n, .inr ⟨err, channel_error (bind_of_error hread)⟩⟩

theorem yields_bytes (n : Nat) :
    Yields (onChannel (Channel.read n) : CodecM κ Bytes) n fun _ bytes => bytes.length = n := by
  have hread : Yields (onChannel (do return id (← Channel.read n)) : CodecM κ Bytes) n _ := yields_onChannel n id
  simp only [id, bind_pure] at hread
  exact hread.mono fun _ _ h => h.2 ▸ h.1

theorem yields_byte : Yields (readByte : CodecM κ UInt8) 1 fun taken byte => taken = [byte] := by
  refine (yields_onChannel 1 _).mono fun taken byte h => ?_
  obtain ⟨first, rfl⟩ := List.length_eq_one_iff.mp h.1
  rw [h.2]
  rfl

theorem yields_decodeText (bytes : Bytes) :
    Yields (decodeText bytes : CodecM κ String) 0 fun _ text => Utf8.encode text = bytes := by
  rw [decodeText]
  split
  · exact .throw _
  · next htext => exact .pure (Utf8.encode_of_decode? htext)

theorem yields_decodeTag (byte : UInt8) :
    Yields (decodeTag byte : CodecM κ Tag) 0 fun taken tag => taken = [] ∧ tag.toByte = byte := by
  rw [decodeTag]
  split
  · exact .throw _
  · next htag => exact .pure ⟨rfl, Tag.toByte_of_ofByte? htag⟩

theorem yields_decodeKind (byte : UInt8) : Yields (decodeKind byte : CodecM κ MessageKind) 0 fun taken kind =>
    taken = [] ∧ MessageKind.ofByte? byte = some kind := by
  rw [decodeKind]
  split
  · exact .throw _
  · next hkind => exact .pure ⟨rfl, hkind⟩

end Endpoint

/-! ## Reading what has a size -/

/-- How the reading of something with a size in front of it goes. `Announces` says which octets announce which size, and
`room` how many octets there may be behind those that announce one. -/
inductive SizeRead {κ α : Type} (Announces : Bytes → Int32 → Prop) (limit : Nat) (sizeOf : α → Nat) (room : Nat → Nat)
    (most : Nat) (channel : Channel) : EStateM.Result WireError (Endpoint κ) α → Prop where
  /-- No size was announced, in so many octets. -/
  | unannounced {taken : Bytes} {err : WireError} {last : Endpoint κ} (htaken : channel.Consumes taken last.channel)
      (hlen : taken.length ≤ most) : SizeRead Announces limit sizeOf room most channel (.error err last)
  /-- The size is refused, and nothing was taken behind it. -/
  | refused {front : Bytes} {size : Int32} {err : WireError} {last : Endpoint κ} (hfront : Announces front size)
      (hflaw : Endpoint.sizeFlaw limit size = some err) (htaken : channel.Consumes front last.channel) :
      SizeRead Announces limit sizeOf room most channel (.error err last)
  /-- What follows the size is missing or makes no sense. -/
  | failed {front body : Bytes} {size : Int32} {err : WireError} {last : Endpoint κ} (hfront : Announces front size)
      (hflaw : Endpoint.sizeFlaw limit size = none) (htaken : channel.Consumes (front ++ body) last.channel)
      (hroom : body.length ≤ room size.toInt.toNat) :
      SizeRead Announces limit sizeOf room most channel (.error err last)
  | given {front body : Bytes} {size : Int32} {value : α} {last : Endpoint κ} (hfront : Announces front size)
      (hflaw : Endpoint.sizeFlaw limit size = none) (htaken : channel.Consumes (front ++ body) last.channel)
      (hroom : body.length ≤ room size.toInt.toNat) (hsize : sizeOf value = size.toInt.toNat) :
      SizeRead Announces limit sizeOf room most channel (.ok value last)

def ReadsSized {κ α : Type} (codec : κ) (act : CodecM κ α) (Announces : Bytes → Int32 → Prop) (limit : Nat)
    (sizeOf : α → Nat) (room : Nat → Nat) (most : Nat) : Prop :=
  ∀ channel, SizeRead Announces limit sizeOf room most channel (act ⟨codec, channel⟩)

namespace ReadsSized
variable {κ α β : Type} {codec : κ} {act : CodecM κ α} {Announces : Bytes → Int32 → Prop} {limit most : Nat}
  {sizeOf : α → Nat} {room : Nat → Nat}

theorem throw (err : WireError) : ReadsSized codec (throw err : CodecM κ α) Announces limit sizeOf room most :=
  fun channel => .unannounced (.refl channel) (Nat.zero_le most)

theorem judge {size : Int32} (h : Announces [] size) :
    ReadsSized codec (Endpoint.judgeSize limit size) Announces limit id (fun _ => 0) most := by
  intro channel
  unfold Endpoint.judgeSize
  cases hflaw : Endpoint.sizeFlaw limit size with
  | some err => exact .refused h hflaw (.refl channel)
  | none =>
    have htaken : channel.Consumes ([] ++ []) channel := .refl channel
    exact .given h hflaw htaken (Nat.le_refl 0) rfl

theorem ite {cond : Prop} [Decidable cond] {other : CodecM κ α}
    (h : cond → ReadsSized codec act Announces limit sizeOf room most)
    (hother : ¬cond → ReadsSized codec other Announces limit sizeOf room most) :
    ReadsSized codec (if cond then act else other) Announces limit sizeOf room most := by
  split
  · exact h ‹_›
  · exact hother ‹_›

theorem get {next : Endpoint κ → CodecM κ α}
    (h : ∀ channel, ReadsSized codec (next ⟨codec, channel⟩) Announces limit sizeOf room most) :
    ReadsSized codec (get >>= next) Announces limit sizeOf room most :=
  fun channel => h channel channel

theorem mono {Announces' : Bytes → Int32 → Prop} {room' : Nat → Nat} {most' : Nat}
    (h : ReadsSized codec act Announces limit sizeOf room most)
    (hannounces : ∀ front size, Announces front size → Announces' front size) (hroom : ∀ n, room n ≤ room' n)
    (hmost : most ≤ most') : ReadsSized codec act Announces' limit sizeOf room' most' := by
  intro channel
  generalize hact : act ⟨codec, channel⟩ = result
  have hread := h channel
  rw [hact] at hread
  cases hread with
  | unannounced htaken hlen => exact .unannounced htaken (Nat.le_trans hlen hmost)
  | refused hfront hflaw htaken => exact .refused (hannounces _ _ hfront) hflaw htaken
  | failed hfront hflaw htaken hlen =>
    exact .failed (hannounces _ _ hfront) hflaw htaken (Nat.le_trans hlen (hroom _))
  | given hfront hflaw htaken hlen hsize =>
    exact .given (hannounces _ _ hfront) hflaw htaken (Nat.le_trans hlen (hroom _)) hsize

theorem longer {more : Nat} (h : ReadsSized codec act Announces limit sizeOf room most) (hmost : most ≤ more) :
    ReadsSized codec act Announces limit sizeOf room more :=
  h.mono (fun _ _ h => h) (fun _ => Nat.le_refl _) hmost

/-- Something that is read before the size. -/
theorem after {first : CodecM κ α} {next : α → CodecM κ β} {lead less : Nat} {Stands : Bytes → α → Prop}
    {sizeOf : β → Nat} (hfirst : Yields first lead Stands) (hmost : lead + less ≤ most)
    (hnext : ∀ taken value, Stands taken value →
      ReadsSized codec (next value) (fun front => Announces (taken ++ front)) limit sizeOf room less) :
    ReadsSized codec (first >>= next) Announces limit sizeOf room most := by
  intro channel
  obtain ⟨taken, middle, htaken, hlead, ⟨value, hact, hstands⟩ | ⟨err, hact⟩⟩ := hfirst codec channel
  · rw [bind_of_ok hact]
    generalize hrest : next value ⟨codec, middle⟩ = result
    have hread := hnext taken value hstands middle
    rw [hrest] at hread
    cases hread with
    | unannounced hmore hlen => exact .unannounced (htaken.trans hmore) (by rw [List.length_append]; omega)
    | refused hfront hflaw hmore => exact .refused hfront hflaw (htaken.trans hmore)
    | failed hfront hflaw hmore hlen =>
      have hall := htaken.trans hmore
      rw [← List.append_assoc] at hall
      exact .failed hfront hflaw hall hlen
    | given hfront hflaw hmore hlen hsize =>
      have hall := htaken.trans hmore
      rw [← List.append_assoc] at hall
      exact .given hfront hflaw hall hlen hsize
  · rw [bind_of_error hact]
    exact .unannounced htaken (by omega)

/-- Something that is read behind the size, or made of it. -/
theorem before {next : α → CodecM κ β} (extra : Nat → Nat) {room' : Nat → Nat} {sizeOf' : β → Nat}
    (h : ReadsSized codec act Announces limit sizeOf room most)
    (hnext : ∀ value, Yields (next value) (extra (sizeOf value)) fun _ result => sizeOf' result = sizeOf value)
    (hroom : ∀ n, room n + extra n ≤ room' n) :
    ReadsSized codec (act >>= next) Announces limit sizeOf' room' most := by
  intro channel
  generalize hact : act ⟨codec, channel⟩ = first
  have hread := h channel
  rw [hact] at hread
  cases hread with
  | unannounced htaken hlen =>
    rw [bind_of_error hact]
    exact .unannounced htaken hlen
  | refused hfront hflaw htaken =>
    rw [bind_of_error hact]
    exact .refused hfront hflaw htaken
  | failed hfront hflaw htaken hlen =>
    rw [bind_of_error hact]
    exact .failed hfront hflaw htaken (Nat.le_trans hlen (Nat.le_of_add_right_le (hroom _)))
  | @given front body size value last hfront hflaw htaken hlen hsize =>
    obtain ⟨codec', middle⟩ := last
    rw [bind_of_ok hact]
    obtain ⟨more, last, hmore, hlen', hrest⟩ := hnext value codec' middle
    have hall := htaken.trans hmore
    have hfits : (body ++ more).length ≤ room' size.toInt.toNat := by
      have := hroom size.toInt.toNat
      rw [hsize] at hlen'
      rw [List.length_append]
      omega
    rw [List.append_assoc] at hall
    rcases hrest with ⟨result, hnext, hsame⟩ | ⟨err, hnext⟩
    · rw [hnext]
      exact .given hfront hflaw hall hfits (hsame.trans hsize)
    · rw [hnext]
      exact .failed hfront hflaw hall hfits

/-- Something that is made of what was read, and takes no octets. -/
theorem made {next : α → CodecM κ β} {sizeOf' : β → Nat} (h : ReadsSized codec act Announces limit sizeOf room most)
    (hnext : ∀ value, Yields (next value) 0 fun _ result => sizeOf' result = sizeOf value) :
    ReadsSized codec (act >>= next) Announces limit sizeOf' room most :=
  h.before (fun _ => 0) hnext fun _ => Nat.le_refl _

theorem map (f : α → β) {sizeOf' : β → Nat} (h : ReadsSized codec act Announces limit sizeOf room most)
    (hf : ∀ value, sizeOf' (f value) = sizeOf value) :
    ReadsSized codec (do return f (← act)) Announces limit sizeOf' room most :=
  h.made fun value => .pure (hf value)

/-- As many octets as the size says. -/
theorem run {act : CodecM κ Nat} (h : ReadsSized codec act Announces limit id (fun _ => 0) most) :
    ReadsSized codec (do Endpoint.onChannel (Channel.read (← act))) Announces limit List.length id most :=
  h.before id Endpoint.yields_bytes fun n => Nat.le_of_eq (Nat.zero_add n)

/-- The text that they spell. -/
theorem text {act : CodecM κ Bytes} (h : ReadsSized codec act Announces limit List.length room most) :
    ReadsSized codec (do Endpoint.decodeText (← act)) Announces limit (fun text => (Utf8.encode text).length) room
      most :=
  h.made fun bytes => (Endpoint.yields_decodeText bytes).mono fun _ _ hsame => congrArg _ hsame

end ReadsSized

/-- On every channel that holds the octets, the action takes exactly them and fails. -/
def Refuses {κ α : Type} (codec : κ) (act : CodecM κ α) (bytes : Bytes) (err : WireError) : Prop :=
  ∀ ⦃channel base : Channel⦄ ⦃rest later : Bytes⦄, channel.Holds base (bytes ++ rest) later →
    ∃ after, act ⟨codec, channel⟩ = .error err after ∧ after.channel.Holds base rest later

namespace Refuses
variable {κ α β : Type} {codec codec' : κ} {act : CodecM κ α} {bytes more : Bytes} {value : α} {err : WireError}

theorem judge {limit : Nat} {size : Int32} (h : Endpoint.sizeFlaw limit size = some err) :
    Refuses codec (Endpoint.judgeSize limit size) [] err := by
  intro channel base rest later hs
  simp only [Endpoint.judgeSize, h]
  exact ⟨⟨codec, channel⟩, rfl, hs⟩

/-- A failure ends the action. -/
theorem first {next : α → CodecM κ β} (h : Refuses codec act bytes err) : Refuses codec (act >>= next) bytes err := by
  intro channel base rest later hs
  obtain ⟨after, hact, hafter⟩ := h hs
  exact ⟨after, bind_of_error hact, hafter⟩

/-- What is read before the failure. -/
theorem after {next : α → CodecM κ β} (h : Reads codec act bytes value codec')
    (hnext : Refuses codec' (next value) more err) : Refuses codec (act >>= next) (bytes ++ more) err := by
  intro channel base rest later hs
  rw [List.append_assoc] at hs
  obtain ⟨middle, hact, hmiddle⟩ := h hs
  obtain ⟨last, hrest, hlast⟩ := hnext hmiddle
  exact ⟨last, by rw [bind_of_ok hact, hrest], hlast⟩

/-- What takes no octets and comes before the failure. -/
theorem opening {next : α → CodecM κ β} (h : Reads codec act [] value codec')
    (hnext : Refuses codec' (next value) bytes err) : Refuses codec (act >>= next) bytes err :=
  Refuses.after h hnext

/-- What is read before the failure and takes all the octets. -/
theorem ending {next : α → CodecM κ β} (h : Reads codec act bytes value codec')
    (hnext : Refuses codec' (next value) [] err) : Refuses codec (act >>= next) bytes err := by
  have hall := Refuses.after h hnext
  rwa [List.append_nil] at hall

theorem get {next : Endpoint κ → CodecM κ α} (h : ∀ channel, Refuses codec (next ⟨codec, channel⟩) bytes err) :
    Refuses codec (get >>= next) bytes err :=
  fun channel _ _ _ hs => h channel hs

end Refuses

/-- Of a codec at work, only the channel matters. -/
theorem SizeRead.onPart {κ κ' α : Type} {Announces : Bytes → Int32 → Prop} {limit most : Nat} {sizeOf : α → Nat}
    {room : Nat → Nat} {get : Endpoint κ' → Endpoint κ} {put : Endpoint κ' → Endpoint κ → Endpoint κ'}
    {act : CodecM κ α} {whole : Endpoint κ'} {channel : Channel}
    (hput : ∀ part, (put whole part).channel = part.channel)
    (h : SizeRead Announces limit sizeOf room most channel (act (get whole))) :
    SizeRead Announces limit sizeOf room most channel (onPart get put act whole) := by
  unfold RpcWire.onPart
  generalize act (get whole) = result at h
  cases h with
  | unannounced htaken hlen => exact .unannounced (by rwa [hput]) hlen
  | refused hfront hflaw htaken => exact .refused hfront hflaw (by rwa [hput])
  | failed hfront hflaw htaken hroom => exact .failed hfront hflaw (by rwa [hput]) hroom
  | given hfront hflaw htaken hroom hsize => exact .given hfront hflaw (by rwa [hput]) hroom hsize

theorem ReadsSized.binary {α : Type} {codec : Binary} {act : Binary.M α} {Announces : Bytes → Int32 → Prop}
    {limit most : Nat} {sizeOf : α → Nat} {room : Nat → Nat} (other : Compact.M α)
    (h : ReadsSized codec act Announces limit sizeOf room most) :
    ReadsSized (.binary codec) (WireM.dispatch act other) Announces limit sizeOf room most := by
  intro channel
  unfold WireM.dispatch
  exact SizeRead.onPart (fun _ => rfl) (h channel)

theorem ReadsSized.compact {α : Type} {codec : Compact} {act : Compact.M α} {Announces : Bytes → Int32 → Prop}
    {limit most : Nat} {sizeOf : α → Nat} {room : Nat → Nat} (other : Binary.M α)
    (h : ReadsSized codec act Announces limit sizeOf room most) :
    ReadsSized (.compact codec) (WireM.dispatch other act) Announces limit sizeOf room most := by
  intro channel
  unfold WireM.dispatch
  exact SizeRead.onPart (fun _ => rfl) (h channel)

theorem Refuses.binary {α : Type} {codec : Binary} {act : Binary.M α} {bytes : Bytes} {err : WireError}
    (other : Compact.M α) (h : Refuses codec act bytes err) :
    Refuses (.binary codec) (WireM.dispatch act other) bytes err := by
  intro channel base rest later hs
  obtain ⟨after, hact, hafter⟩ := h hs
  exact ⟨⟨.binary after.codec, after.channel⟩, by simp only [WireM.dispatch, onPart, hact], hafter⟩

theorem Refuses.compact {α : Type} {codec : Compact} {act : Compact.M α} {bytes : Bytes} {err : WireError}
    (other : Binary.M α) (h : Refuses codec act bytes err) :
    Refuses (.compact codec) (WireM.dispatch other act) bytes err := by
  intro channel base rest later hs
  obtain ⟨after, hact, hafter⟩ := h hs
  exact ⟨⟨.compact after.codec, after.channel⟩, by simp only [WireM.dispatch, onPart, hact], hafter⟩

end RpcWire
