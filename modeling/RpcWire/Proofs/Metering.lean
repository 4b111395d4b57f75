import RpcWire.Proofs.Announcing
import RpcWire.Proofs.Matching

/-! What a reader's operation does with the sizes that it comes to, however deep they stand in a value that is skipped
or in a fault. A metered run does what the operation does, and notes each part with a size where it is read and each
item of a container that is skipped. -/
namespace RpcWire

inductive Note where
  /-- A part with a size was read here. -/
  | met (part : Sized) (place : Endpoint Codec)
  /-- Of so many items of a container, this one was skipped, counted from zero. -/
  | item (index size : Nat)

structure Metering (σ : Type) where
  state : σ
  notes : List Note := []

abbrev MeterM (σ : Type) := EStateM WireError (Metering σ)

namespace Metering
variable {σ α β : Type}

def plainly (act : EStateM WireError σ α) : MeterM σ α :=
  onPart Metering.state (fun metering state => { metering with state }) act

def takeNote (note : Note) : MeterM σ Unit :=
  modify fun metering => { metering with notes := metering.notes ++ [note] }

def noted (notes : List Note) : EStateM.Result WireError σ α → EStateM.Result WireError (Metering σ) α
  | .ok value state => .ok value ⟨state, notes⟩
  | .error err state => .error err ⟨state, notes⟩

def meet (part : Sized) : MeterM (Endpoint Codec) part.Result := do
  takeNote (.met part (← get).state)
  plainly part.read

def meetFieldHeads (step : β → FieldHeader → MeterM (Endpoint Codec) β) : Nat → β → MeterM (Endpoint Codec) β
  | 0, _ => throw .streamClosed
  | most + 1, acc => do
    let header ← plainly WireM.readFieldBegin
    if header.tag = .stop then return acc
    meetFieldHeads step most (← step acc header)

def meetStruct (init : β) (step : β → FieldHeader → MeterM (Endpoint Codec) β) : MeterM (Endpoint Codec) β := do
  plainly WireM.readStructBegin
  let result ← meetFieldHeads step ((← get).state.channel.available + 1) init
  plainly WireM.readStructEnd
  return result

def meetItems (act : MeterM (Endpoint Codec) Unit) (size : Nat) : Nat → MeterM (Endpoint Codec) Unit
  | 0 => pure ()
  | left + 1 => do
    takeNote (.item (size - (left + 1)) size)
    act
    meetItems act size left

def meetValue : Nat → Tag → MeterM (Endpoint Codec) Unit
  | 0, _ => throw .depthLimit
  | depth + 1, tag =>
    match tag with
    | .string => discard (meet .run)
    | .struct => meetStruct () fun _ header => meetValue depth header.tag
    | .map => do
      let header ← meet .map
      meetItems (do meetValue depth header.key; meetValue depth header.value) header.size header.size
    | .set | .list => do
      let header ← meet .list
      meetItems (meetValue depth header.elem) header.size header.size
    | leaf => plainly (WireM.skip 1 leaf)

def meetFault (depth : Nat) : MeterM (Endpoint Codec) Fault :=
  meetStruct ⟨.unknown, ""⟩ fun fault header =>
    match header.tag, header.id with
    | .string, 1 => return { fault with message := ← meet .text }
    | .i32, 2 => return { fault with kind := .ofWire (← plainly WireM.readI32) }
    | tag, _ => do
      meetValue depth tag
      return fault

def onWire (act : MeterM (Endpoint Codec) α) : MeterM Session α :=
  onPart (fun whole => ⟨whole.state.endpoint, whole.notes⟩)
    (fun whole part => ⟨{ whole.state with endpoint := part.state }, part.notes⟩) act

def meetMessageBegin : MeterM Session MessageHeader := do
  plainly Session.negotiateRead
  plainly Session.resetCodec
  let header ← onWire (meet .name)
  if header.kind = .exception then
    throw (.fault (← onWire (meetFault (← get).state.config.recursionLimit)))
  return header

def meetSkip (tag : Tag) : MeterM Session Unit := do
  onWire (meetValue (← get).state.config.recursionLimit tag)

def meetRaw (tag : Tag) : MeterM Session Bytes := fun metering =>
  match meetSkip tag { metering with state := metering.state.mapChannel Channel.startCapture } with
  | .ok () ⟨after, notes⟩ => .ok after.endpoint.channel.capture ⟨after.mapChannel Channel.stopCapture, notes⟩
  | .error err ⟨after, notes⟩ => .error err ⟨after.mapChannel Channel.stopCapture, notes⟩

def read : Session.Reading → MeterM Session Session.Answer
  | .messageBegin => return .message (← meetMessageBegin)
  | .mapBegin => return .map (← onWire (meet .map))
  | .listBegin | .setBegin => return .list (← onWire (meet .list))
  | .text => return .text (← onWire (meet .text))
  | .bytes => return .octets (← onWire (meet .run))
  | .skip tag => do meetSkip tag; return .done
  | .raw tag => return .octets (← meetRaw tag)
  | other => plainly other.run

end Metering

/-- The note of an operation with some limits: a part that cannot be read ends the operation as `ends` says, with
nothing more taken, and no container has more items than it may. -/
def Note.Kept (limits : Limits) (ends : WireError → Bytes → Prop) : Note → Prop
  | .met part place => place.codec.limits = limits ∧
      ∀ err last, part.read place = .error err last → ends err last.channel.unread
  | .item index size => index < size ∧ Endpoint.Within limits.container size

/-- A failure that carries no text above the limit. -/
def WireError.Fits (limits : Limits) (err : WireError) : Prop :=
  ∀ fault, err = .fault fault → Endpoint.Within limits.text (Utf8.encode fault.message).length

/-- From all states of which something is known, the metered action does what the plain one does and keeps what is
known. What it gives is as `fits` says, and all its notes are kept. -/
def Meters {σ α : Type} (limits : Limits) (known : σ → Prop) (endpointOf : σ → Endpoint Codec)
    (plain : EStateM WireError σ α) (metered : MeterM σ α) (fits : α → Prop) : Prop :=
  ∀ state notes, known state → ∃ last news, known last ∧
    ((∃ value, plain state = .ok value last ∧ metered ⟨state, notes⟩ = .ok value ⟨last, notes ++ news⟩ ∧ fits value ∧
        ∀ note ∈ news, note.Kept limits fun _ _ => False) ∨
      ∃ err, plain state = .error err last ∧ metered ⟨state, notes⟩ = .error err ⟨last, notes ++ news⟩ ∧
        err.Fits limits ∧
        ∀ note ∈ news, note.Kept limits fun err' unread => err' = err ∧ unread = (endpointOf last).channel.unread)

namespace Meters
open Metering
variable {σ α β : Type} {limits : Limits} {known : σ → Prop} {endpointOf : σ → Endpoint Codec}
  {plain : EStateM WireError σ α} {metered : MeterM σ α} {fits : α → Prop}

private theorem pure {value : α} (h : fits value) :
    Meters limits known endpointOf (pure value) (pure value) fits := by
  intro state notes hknown
  refine ⟨state, [], hknown, .inl ⟨value, rfl, ?_, h, List.forall_mem_nil _⟩⟩
  rw [List.append_nil]
  rfl

private theorem throw {err : WireError} (h : err.Fits limits) :
    Meters limits known endpointOf (throw err) (throw err : MeterM σ α) fits := by
  intro state notes hknown
  refine ⟨state, [], hknown, .inr ⟨err, rfl, ?_, h, List.forall_mem_nil _⟩⟩
  rw [List.append_nil]
  rfl

private theorem bind {next : α → EStateM WireError σ β} {meteredNext : α → MeterM σ β} {fits' : β → Prop}
    (h : Meters limits known endpointOf plain metered fits)
    (hnext : ∀ value, fits value → Meters limits known endpointOf (next value) (meteredNext value) fits') :
    Meters limits known endpointOf (plain >>= next) (metered >>= meteredNext) fits' := by
  intro state notes hknown
  obtain ⟨middle, news, hmiddle, ⟨value, hplain, hmetered, hfits, hkept⟩ | ⟨err, hplain, hmetered, hfits, hkept⟩⟩ :=
    h state notes hknown
  · obtain ⟨last, more, hlast, hrest⟩ := hnext value hfits middle (notes ++ news) hmiddle
    have hcarry (ends : WireError → Bytes → Prop) : ∀ note ∈ news, note.Kept limits ends := by
      intro note hnote
      have hnow := hkept note hnote
      cases note with
      | met part place => exact ⟨hnow.1, fun err last hread => (hnow.2 err last hread).elim⟩
      | item index size => exact hnow
    rw [bind_of_ok hplain, bind_of_ok hmetered]
    refine ⟨last, news ++ more, hlast, ?_⟩
    rw [← List.append_assoc]
    rcases hrest with ⟨result, hplain', hmetered', hfits', hkept'⟩ | ⟨err, hplain', hmetered', hfits', hkept'⟩
    · exact .inl ⟨result, hplain', hmetered', hfits', List.forall_mem_append.mpr ⟨hcarry _, hkept'⟩⟩
    · exact .inr ⟨err, hplain', hmetered', hfits', List.forall_mem_append.mpr ⟨hcarry _, hkept'⟩⟩
  · exact ⟨middle, news, hmiddle, .inr ⟨err, bind_of_error hplain, bind_of_error hmetered, hfits, hkept⟩⟩

private theorem mono {fits' : α → Prop} (h : Meters limits known endpointOf plain metered fits)
    (hfits : ∀ value, fits value → fits' value) : Meters limits known endpointOf plain metered fits' := by
  intro state notes hknown
  obtain ⟨last, news, hlast, ⟨value, hplain, hmetered, hvalue, hkept⟩ | hfailed⟩ := h state notes hknown
  · exact ⟨last, news, hlast, .inl ⟨value, hplain, hmetered, hfits value hvalue, hkept⟩⟩
  · exact ⟨last, news, hlast, .inr hfailed⟩

private theorem seq {act next : EStateM WireError σ Unit} {meteredAct meteredNext : MeterM σ Unit}
    {fits : Unit → Prop}
    {fits' : Unit → Prop} (h : Meters limits known endpointOf act meteredAct fits)
    (hnext : Meters limits known endpointOf next meteredNext fits') :
    Meters limits known endpointOf (do act; next) (do meteredAct; meteredNext) fits' :=
  h.bind fun _ _ => hnext

private theorem ite {cond : Prop} [Decidable cond] {other : EStateM WireError σ α} {meteredOther : MeterM σ α}
    (h : cond → Meters limits known endpointOf plain metered fits)
    (hother : ¬cond → Meters limits known endpointOf other meteredOther fits) :
    Meters limits known endpointOf (if cond then plain else other) (if cond then metered else meteredOther) fits := by
  split
  · exact h ‹_›
  · exact hother ‹_›

/-- Looking at the state. -/
private theorem get {next : σ → EStateM WireError σ β} {meteredNext : Metering σ → MeterM σ β} {fits : β → Prop}
    (h : ∀ state notes, known state → Meters limits known endpointOf (next state) (meteredNext ⟨state, notes⟩) fits) :
    Meters limits known endpointOf (get >>= next) (get >>= meteredNext) fits :=
  fun state notes hknown => h state notes hknown state notes hknown

/-- What is done without notes. -/
theorem plainly {act : EStateM WireError σ α} (hknown : Maintains known act) (hplain : Faultless act) :
    Meters limits known endpointOf act (Metering.plainly act) fun _ => True := by
  intro state notes hstate
  cases hact : act state with
  | ok value last =>
    refine ⟨last, [], hknown.of_ok hact hstate, .inl ⟨value, rfl, ?_, trivial, List.forall_mem_nil _⟩⟩
    rw [List.append_nil]
    exact onPart_ok hact
  | error err last =>
    refine ⟨last, [], hknown.of_error hact hstate, .inr ⟨err, rfl, ?_, ?_, List.forall_mem_nil _⟩⟩
    · rw [List.append_nil]
      exact onPart_error hact
    · exact fun fault hfault => (hplain hact fault hfault).elim

/-- Before something is done, an item is noted that its container may have. -/
theorem item {index size : Nat} (hindex : index < size) (hsize : Endpoint.Within limits.container size)
    (h : Meters limits known endpointOf plain metered fits) :
    Meters limits known endpointOf plain (do takeNote (.item index size); metered) fits := by
  intro state notes hknown
  have hkept (ends : WireError → Bytes → Prop) : (Note.item index size).Kept limits ends := ⟨hindex, hsize⟩
  have hnoted : (do takeNote (.item index size); metered) ⟨state, notes⟩ =
      metered ⟨state, notes ++ [.item index size]⟩ := rfl
  obtain ⟨last, news, hlast, hrest⟩ := h state (notes ++ [.item index size]) hknown
  refine ⟨last, .item index size :: news, hlast, ?_⟩
  rw [hnoted, List.append_cons notes _ news]
  rcases hrest with ⟨value, hplain, hmetered, hfits, hnews⟩ | ⟨err, hplain, hmetered, hfits, hnews⟩
  · exact .inl ⟨value, hplain, hmetered, hfits, List.forall_mem_cons.mpr ⟨hkept _, hnews⟩⟩
  · exact .inr ⟨err, hplain, hmetered, hfits, List.forall_mem_cons.mpr ⟨hkept _, hnews⟩⟩

end Meters

theorem Codec.Suits.limits {config : SessionConfig} {codec : Codec} (h : codec.Suits config) :
    codec.limits = config.limits := by
  cases codec with
  | binary codec =>
    obtain rfl : codec = { strict := config.strictRead, limits := config.limits } := h
    rfl
  | compact codec => exact h

namespace Sized

theorem faultless_read (part : Sized) : Faultless part.read := by
  cases part with
  | run => exact WireM.faultless_run
  | text => exact WireM.faultless_text
  | name => exact WireM.faultless_messageBegin
  | map => exact WireM.faultless_mapBegin
  | list => exact WireM.faultless_listBegin

theorem follows_read {pairing : Pairing} {config : SessionConfig} {n : Nat} (part : Sized) :
    Follows pairing (Codec.Suits config) n n part.read part.read := by
  cases part with
  | run => exact WireM.follows_run
  | text => exact WireM.follows_text
  | name => exact WireM.follows_messageBegin.plain
  | map => exact WireM.follows_mapBegin.plain
  | list => exact WireM.follows_listBegin.plain

end Sized

/-- An action that does the same whatever the pieces keeps what its codec has of the settings. -/
theorem Follows.maintains {α : Type} {config : SessionConfig} {act : WireM α}
    (h : Follows Transport.pieces.channels.toPairing (Codec.Suits config) 0 0 act act) :
    Maintains (fun place => place.codec.Suits config) act := by
  intro place hplace
  have hsame := h ⟨rfl, hplace, ⟨_, (Transport.rechunk_chunk _).symm⟩, rfl, rfl⟩
  cases hact : act place with
  | ok value last =>
    rw [hact] at hsame
    exact hsame.of_ok.2.known
  | error err last =>
    rw [hact] at hsame
    rcases hsame.of_error with hstop | ⟨last', -, hlast⟩
    · exact hstop.elim
    · exact hlast.known

abbrev MetersWire {α : Type} (config : SessionConfig) (plain : WireM α) (metered : MeterM (Endpoint Codec) α)
    (fits : α → Prop) : Prop :=
  Meters config.limits (fun place => place.codec.Suits config) id plain metered fits

namespace Meters
open Metering
variable {β : Type} {config : SessionConfig}

/-- A part is noted and read. -/
theorem meet (part : Sized) : MetersWire config part.read (Metering.meet part) fun value =>
    Endpoint.Within (part.limit config.limits) (part.size value) := by
  intro place notes hplace
  have hmeet : Metering.meet part ⟨place, notes⟩ = Metering.plainly part.read ⟨place, notes ++ [.met part place]⟩ := rfl
  have hknown : Maintains (fun place => place.codec.Suits config) part.read := Follows.maintains part.follows_read
  have hread := part.readsSized place.codec place.channel
  rw [hplace.limits] at hread
  rw [hmeet]
  cases hact : part.read place with
  | ok value last =>
    rw [hact] at hread
    refine ⟨last, [.met part place], hknown.of_ok hact hplace, .inl ⟨value, rfl, onPart_ok hact, ?_, ?_⟩⟩
    · cases hread with
      | given _ hflaw _ _ hsize =>
        rw [hsize]
        exact Endpoint.within_of_sizeFlaw hflaw
    · refine List.forall_mem_singleton.mpr ⟨hplace.limits, fun err last hfail => ?_⟩
      cases hact.symm.trans hfail
  | error err last =>
    refine ⟨last, [.met part place], hknown.of_error hact hplace, .inr ⟨err, rfl, onPart_error hact, ?_, ?_⟩⟩
    · exact fun fault hfault => (part.faultless_read hact fault hfault).elim
    · refine List.forall_mem_singleton.mpr ⟨hplace.limits, fun err' last' hfail => ?_⟩
      cases hact.symm.trans hfail
      exact ⟨rfl, rfl⟩

private theorem wire {α : Type} {act : WireM α}
    (h : Follows Transport.pieces.channels.toPairing (Codec.Suits config) 0 0 act act) (hplain : Faultless act) :
    MetersWire config act (Metering.plainly act) fun _ => True :=
  plainly (Follows.maintains h) hplain

/-- No item is skipped beyond the size of its container, and this is within the limit. -/
theorem items {act : WireM Unit} {metered : MeterM (Endpoint Codec) Unit} {size left : Nat}
    (h : MetersWire config act metered fun _ => True) (hsize : Endpoint.Within config.limits.container size)
    (hleft : left ≤ size) :
    MetersWire config (WireM.times act left) (meetItems metered size left) fun _ => True := by
  induction left with
  | zero => exact .pure trivial
  | succ left ih => exact .item (by omega) hsize (h.seq (ih (by omega)))

private theorem fieldHeads {step : β → FieldHeader → WireM β}
    {meteredStep : β → FieldHeader → MeterM (Endpoint Codec) β}
    {fits : β → Prop} (hstep : ∀ acc header, fits acc →
      MetersWire config (step acc header) (meteredStep acc header) fits) (most : Nat) {acc : β} (hacc : fits acc) :
    MetersWire config (WireM.foldFieldHeads step most acc) (meetFieldHeads meteredStep most acc) fits := by
  induction most generalizing acc with
  | zero => exact .throw nofun
  | succ most ih =>
    refine (wire WireM.follows_fieldBegin.plain WireM.faultless_fieldBegin).bind fun header _ => ?_
    exact .ite (fun _ => .pure hacc) fun _ => (hstep acc header hacc).bind fun acc hacc => ih hacc

private theorem struct {init : β} {step : β → FieldHeader → WireM β}
    {meteredStep : β → FieldHeader → MeterM (Endpoint Codec) β}
    {fits : β → Prop} (hinit : fits init) (hstep : ∀ acc header, fits acc →
      MetersWire config (step acc header) (meteredStep acc header) fits) :
    MetersWire config (WireM.foldStruct init step) (meetStruct init meteredStep) fits := by
  refine (wire WireM.follows_structBegin WireM.faultless_structBegin).bind fun _ _ => .get fun place notes _ => ?_
  refine (fieldHeads hstep _ hinit).bind fun result hresult => ?_
  exact (wire WireM.follows_structEnd WireM.faultless_structEnd).bind fun _ _ => .pure hresult

/-- A value is skipped with all that stands in it. -/
theorem value (depth : Nat) (tag : Tag) :
    MetersWire config (WireM.skip depth tag) (meetValue depth tag) fun _ => True := by
  induction depth generalizing tag with
  | zero => exact .throw nofun
  | succ depth ih =>
    have hleaf (tag : Tag) : MetersWire config (WireM.skip 1 tag) (Metering.plainly (WireM.skip 1 tag)) fun _ => True :=
      wire (WireM.follows_skip 1 tag) (WireM.faultless_skip 1 tag)
    cases tag with
    | string => exact (meet .run).bind fun _ _ => .pure trivial
    | struct => exact struct trivial fun _ header _ => ih header.tag
    | map =>
      refine (meet .map).bind fun header hsize => ?_
      exact items ((ih header.key).seq (ih header.value)) hsize (Nat.le_refl _)
    | set => exact (meet .list).bind fun header hsize => items (ih header.elem) hsize (Nat.le_refl _)
    | list => exact (meet .list).bind fun header hsize => items (ih header.elem) hsize (Nat.le_refl _)
    | bool => exact hleaf .bool
    | byte => exact hleaf .byte
    | i16 => exact hleaf .i16
    | i32 => exact hleaf .i32
    | i64 => exact hleaf .i64
    | double => exact hleaf .double
    | float => exact hleaf .float
    | stop => exact hleaf .stop
    | void => exact hleaf .void

/-- The message of a fault is within the limit. -/
theorem fault (depth : Nat) : MetersWire config (Fault.read depth) (meetFault depth) fun fault =>
    Endpoint.Within config.limits.text (Utf8.encode fault.message).length := by
  refine struct (.inr (Nat.zero_le _)) fun fault header hfault => ?_
  obtain ⟨tag, id⟩ := header
  dsimp only
  split
  · exact (meet .text).bind fun message hmessage => .pure hmessage
  · exact (wire WireM.follows_i32 WireM.faultless_i32).bind fun code _ => .pure hfault
  · next hmessage hkind =>
    -- The metered step decides alike.
    split
    · exact (hmessage rfl rfl).elim
    · exact (hkind rfl rfl).elim
    · exact (value depth tag).bind fun _ _ => .pure hfault

end Meters

abbrev MetersSession {α : Type} (config : SessionConfig) (plain : SessionM α) (metered : MeterM Session α)
    (fits : α → Prop) : Prop :=
  Meters config.limits (Session.Configured config) Session.endpoint plain metered fits

namespace Meters
open Metering
variable {α : Type} {config : SessionConfig}

/-- A session does what its codec does. -/
theorem onWire {plain : WireM α} {metered : MeterM (Endpoint Codec) α} {fits : α → Prop}
    (h : MetersWire config plain metered fits) :
    MetersSession config (Session.onWire plain) (Metering.onWire metered) fits := by
  intro session notes hsession
  obtain ⟨last, news, hlast, ⟨value, hplain, hmetered, hfits, hkept⟩ | ⟨err, hplain, hmetered, hfits, hkept⟩⟩ :=
    h session.endpoint notes hsession.suits
  · exact ⟨{ session with endpoint := last }, news, ⟨hsession.config_eq, hlast⟩,
      .inl ⟨value, onPart_ok hplain, by simp only [Metering.onWire, onPart, hmetered], hfits, hkept⟩⟩
  · exact ⟨{ session with endpoint := last }, news, ⟨hsession.config_eq, hlast⟩,
      .inr ⟨err, onPart_error hplain, by simp only [Metering.onWire, onPart, hmetered], hfits, hkept⟩⟩

private theorem session {act : SessionM α} (h : Session.Alike Transport.pieces.channels.toPairing config act)
    (hplain : Faultless act) : MetersSession config act (Metering.plainly act) fun _ => True := by
  refine plainly (fun session hsession => ?_) hplain
  cases hact : act session with
  | ok value after => exact hsession.of_alike h (.inl ⟨value, hact⟩)
  | error err after => exact hsession.of_alike h (.inr ⟨err, hact⟩)

private theorem messageBegin : MetersSession config Session.readMessageBegin meetMessageBegin fun header =>
    Endpoint.Within config.limits.text (Utf8.encode header.name).length := by
  refine (session Session.alike_negotiateRead Session.faultless_negotiateRead).bind fun _ _ => ?_
  refine (session Session.alike_resetCodec (.get fun _ => .modify _)).bind fun _ _ => ?_
  refine (onWire (meet .name)).bind fun header hname => .ite (fun _ => .get fun _ _ _ => ?_) fun _ => .pure hname
  refine (onWire (fault _)).bind fun answer hanswer => ?_
  have hfits : (WireError.fault answer).Fits config.limits := by
    rintro _ ⟨⟩
    exact hanswer
  exact (throw hfits : MetersSession config _ _ fun _ => True).bind fun _ _ => .pure hname

private theorem skip (tag : Tag) : MetersSession config (Session.skip tag) (meetSkip tag) fun _ => True :=
  .get fun _ _ _ => onWire (value _ tag)

private theorem raw (tag : Tag) : MetersSession config (Session.readRaw tag) (meetRaw tag) fun _ => True := by
  intro session notes hsession
  have hcaptured : (session.mapChannel Channel.startCapture).Configured config := ⟨hsession.config_eq, hsession.suits⟩
  obtain ⟨last, news, hlast, ⟨value, hplain, hmetered, -, hkept⟩ | ⟨err, hplain, hmetered, hfits, hkept⟩⟩ :=
    skip tag _ notes hcaptured
  · refine ⟨last.mapChannel Channel.stopCapture, news, ⟨hlast.config_eq, hlast.suits⟩,
      .inl ⟨last.endpoint.channel.capture, ?_, ?_, trivial, hkept⟩⟩
    · rw [Session.readRaw, hplain]
    · rw [meetRaw, hmetered]
  · refine ⟨last.mapChannel Channel.stopCapture, news, ⟨hlast.config_eq, hlast.suits⟩, .inr ⟨err, ?_, ?_, hfits, hkept⟩⟩
    · rw [Session.readRaw, hplain]
    · rw [meetRaw, hmetered]

end Meters
/-- What becomes of a part with a size, at a place that an operation with this result came to. -/
structure Sized.Guarded {α : Type} (limits : Limits) (result : EStateM.Result WireError Session α) (part : Sized)
    (place : Endpoint Codec) : Prop where
  /-- It is read as the size in front of it says, or refused for the size with nothing taken behind that. -/
  sizeRead : SizeRead (place.codec.Announces part) (part.limit limits) part.size part.room lead place.channel
    (part.read place)
  /-- Where a size stands that is negative or above the limit, it is refused. -/
  refuses : ∀ front size err, place.codec.Announces part front size →
    Endpoint.sizeFlaw (part.limit limits) size = some err → Refuses place.codec part.read front err
  /-- With the part the operation fails, and takes nothing more. -/
  ends : ∀ err last, part.read place = .error err last →
    ∃ after, result = .error err after ∧ after.endpoint.channel.unread = last.channel.unread

def Note.Guarded {α : Type} (limits : Limits) (result : EStateM.Result WireError Session α) : Note → Prop
  | .met part place => part.Guarded limits result place
  | .item index size => index < size ∧ Endpoint.Within limits.container size

private theorem Note.Kept.guarded {α : Type} {limits : Limits} {result : EStateM.Result WireError Session α}
    {note : Note}
    {ends : WireError → Bytes → Prop} (h : note.Kept limits ends) (hends : ∀ err unread, ends err unread →
      ∃ after, result = .error err after ∧ after.endpoint.channel.unread = unread) : note.Guarded limits result := by
  cases note with
  | met part place =>
    obtain ⟨rfl, hread⟩ := h
    exact ⟨part.readsSized place.codec place.channel, fun _ _ _ => Sized.refuses,
      fun err last hfail => hends _ _ (hread err last hfail)⟩
  | item index size => exact h

namespace Session

def Reading.Fits (limits : Limits) : Reading → Answer → Prop
  | .messageBegin, .message header => Endpoint.Within limits.text (Utf8.encode header.name).length
  | .mapBegin, .map header => Endpoint.Within limits.container header.size
  | .listBegin, .list header | .setBegin, .list header => Endpoint.Within limits.container header.size
  | .text, .text content => Endpoint.Within limits.text (Utf8.encode content).length
  | .bytes, .octets content => Endpoint.Within limits.text content.length
  | _, _ => True

/-- An operation that does not come to a part with a size. -/
theorem meters_other {config : SessionConfig} {reading : Reading} (hfits : ∀ answer, reading.Fits config.limits answer)
    (hplain : Faultless reading.run) :
    MetersSession config reading.run (Metering.plainly reading.run) (reading.Fits config.limits) :=
  (Meters.session (alike_reading Transport.pieces.captures reading) hplain).mono fun answer _ => hfits answer

private theorem meters_reading {config : SessionConfig} (reading : Reading) :
    MetersSession config reading.run (Metering.read reading) (reading.Fits config.limits) := by
  cases reading with
  | messageBegin => exact Meters.messageBegin.bind fun header hname => .pure hname
  | mapBegin => exact (Meters.onWire (.meet .map)).bind fun header hsize => .pure hsize
  | listBegin => exact (Meters.onWire (.meet .list)).bind fun header hsize => .pure hsize
  | setBegin => exact (Meters.onWire (.meet .list)).bind fun header hsize => .pure hsize
  | text => exact (Meters.onWire (.meet .text)).bind fun content hsize => .pure hsize
  | bytes => exact (Meters.onWire (.meet .run)).bind fun content hsize => .pure hsize
  | skip tag => exact (Meters.skip tag).bind fun _ _ => .pure trivial
  | raw tag => exact (Meters.raw tag).bind fun _ _ => .pure trivial
  | structBegin => exact meters_other (fun _ => trivial) (WireM.faultless_structBegin.onPart.seq (.pure _))
  | structEnd => exact meters_other (fun _ => trivial) (WireM.faultless_structEnd.onPart.seq (.pure _))
  | fieldBegin => exact meters_other (fun _ => trivial) (WireM.faultless_fieldBegin.onPart.map _)
  | bool => exact meters_other (fun _ => trivial) (WireM.faultless_bool.onPart.map _)
  | byte => exact meters_other (fun _ => trivial) (WireM.faultless_byte.onPart.map _)
  | i16 => exact meters_other (fun _ => trivial) (WireM.faultless_i16.onPart.map _)
  | i32 => exact meters_other (fun _ => trivial) (WireM.faultless_i32.onPart.map _)
  | i64 => exact meters_other (fun _ => trivial) (WireM.faultless_i64.onPart.map _)
  | double => exact meters_other (fun _ => trivial) (WireM.faultless_double.onPart.map _)
  | float => exact meters_other (fun _ => trivial) (WireM.faultless_float.onPart.map _)
  | messageEnd | fieldEnd | mapEnd | listEnd | setEnd => exact meters_other (fun _ => trivial) (.pure _)

/-- Whatever comes, and whatever a reader does with it: each part with a size that the operation comes to is read as
that says or ends the operation right behind it, no container has more items than it may, and nothing above a limit is
given, also not as the message of a fault. -/
theorem reading_guarded {config : SessionConfig} {session : Session} (h : Reachable config session)
    (reading : Reading) : ∃ notes,
      Metering.read reading ⟨session, []⟩ = Metering.noted notes (reading.run session) ∧
      (∀ note ∈ notes, note.Guarded config.limits (reading.run session)) ∧
      (∀ answer after, reading.run session = .ok answer after → reading.Fits config.limits answer) ∧
      ∀ fault after, reading.run session = .error (.fault fault) after →
        Endpoint.Within config.limits.text (Utf8.encode fault.message).length := by
  obtain ⟨last, notes, -, ⟨answer, hrun, hmetered, hfits, hkept⟩ | ⟨err, hrun, hmetered, hfits, hkept⟩⟩ :=
    meters_reading reading session [] h.configured
  · refine ⟨notes, by rw [hrun]; exact hmetered, fun note hnote => (hkept note hnote).guarded ?_, ?_, ?_⟩
    · exact fun _ _ h => h.elim
    · rintro _ _ hrun'
      cases hrun.symm.trans hrun'
      exact hfits
    · rintro _ _ hrun'
      cases hrun.symm.trans hrun'
  · refine ⟨notes, by rw [hrun]; exact hmetered, fun note hnote => (hkept note hnote).guarded ?_, ?_, ?_⟩
    · rintro _ _ ⟨rfl, rfl⟩
      exact ⟨last, hrun, rfl⟩
    · rintro _ _ hrun'
      cases hrun.symm.trans hrun'
    · rintro _ _ hrun'
      cases hrun.symm.trans hrun'
      exact hfits _ rfl

/-- A list in a list, with one item more than a container may have: skipping it ends behind the octet that says so. -/
theorem reading_guarded_short : ∃ (config : SessionConfig) (session after : Session) (notes : List Note),
    Reachable config session ∧ config.limits = { text := 16, container := 2 } ∧
      session.stream.unread = [0x19, 0x33, 1, 2, 3] ∧
      Reading.run (.skip .list) session = .error (.sizeLimit 3 2) after ∧
      after.endpoint.channel.unread = [1, 2, 3] ∧ notes.length = 3 ∧
      ∀ note ∈ notes, note.Guarded config.limits (Reading.run (.skip .list) session) := by
  let config : SessionConfig := { transport := .raw, encoding := .compact, limits := { text := 16, container := 2 } }
  let stream : Stream := { unread := [0x19, 0x33, 1, 2, 3] }
  let session : Session := { config, endpoint :=
    { codec := .compact { limits := config.limits }, channel := { transport := .raw stream } } }
  have hreach : Reachable config session := .opened (rfl : ofStream? config stream = .ok session)
  obtain ⟨notes, hmetered, hguarded, -⟩ := reading_guarded hreach (.skip .list)
  have hrun : (match Metering.read (.skip .list) ⟨session, []⟩ with
      | .ok _ _ => none
      | .error err last => some (err, last.notes.length, last.state.endpoint.channel.unread)) =
        some (.sizeLimit 3 2, 3, [1, 2, 3]) := by
    decide +kernel
  cases hresult : Reading.run (.skip .list) session with
  | ok answer after =>
    rw [hmetered, hresult] at hrun
    cases hrun
  | error err after =>
    rw [hmetered, hresult] at hrun
    simp only [Metering.noted, Option.some.injEq, Prod.mk.injEq] at hrun
    obtain ⟨rfl, hlength, hunread⟩ := hrun
    exact ⟨config, session, after, notes, hreach, rfl, rfl, hresult, hunread, hlength, hguarded⟩

end Session
end RpcWire
