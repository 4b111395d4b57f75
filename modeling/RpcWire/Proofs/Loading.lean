import RpcWire.Proofs.Numbers
import RpcWire.Proofs.Visiting
import RpcWire.Settings.Environment

/-! Settings that load, and the connections that a server serves with them. -/
namespace RpcWire

/-! ## Encodings that can be spoken -/

def Encoding.isSpoken : Encoding → Bool
  | .binary | .compact => true
  | .json | .reserved _ => false

section
variable {config : SessionConfig}

private theorem Session.opens_of_isSpoken (h : config.encoding.isSpoken = true) (stream : Stream) :
    ∃ session, ofStream? config stream = .ok session := by
  rw [ofStream?]
  cases hencoding : config.encoding with
  | binary | compact => exact ⟨_, rfl⟩
  | json | reserved => rw [hencoding] at h; cases h

private theorem Session.unopened_of_not_isSpoken (h : config.encoding.isSpoken = false) (stream : Stream) :
    ofStream? config stream = .error (.unsupportedEncoding config.encoding) := by
  rw [ofStream?]
  cases hencoding : config.encoding with
  | binary | compact => rw [hencoding] at h; cases h
  | json | reserved => rfl

end

/-! ## Names of encodings -/

def Encoding.named : List Encoding := [.binary, .json, .compact]

private theorem Encoding.mem_named_of_ofText {text : String} {encoding : Encoding}
    (h : ofText text = .ok encoding) :
    encoding ∈ named := by
  rw [ofText] at h
  split at h
  · next hfind =>
    cases h
    exact List.mem_of_find?_eq_some hfind
  · cases h

/-- Of the named encodings only JSON has no codec. -/
theorem Encoding.isSpoken_iff_of_named {encoding : Encoding} (h : encoding ∈ named) :
    encoding.isSpoken = true ↔ encoding ≠ .json := by
  simp only [named, List.mem_cons, List.not_mem_nil, or_false] at h
  obtain rfl | rfl | rfl := h <;> decide

namespace Settings

open Yaml (Node)

private theorem mem_of_choice? {α : Type} {name : α → String} {choices : List α} {node : Node} {value : α}
    (h : choice? name choices node = some value) : value ∈ choices := by
  obtain ⟨text, -, hfind⟩ := Option.bind_eq_some_iff.mp h
  exact List.mem_of_find?_eq_some hfind

/-- What holds of the usual value and of all that can be read holds of a setting. -/
theorem of_setting? {α : Type} {p : α → Prop} {entries : List (String × Node)} {name : String} {usual value : α}
    {read : Node → Option α} (husual : p usual) (hread : ∀ node value, read node = some value → p value)
    (h : setting? entries name usual read = some value) : p value := by
  rw [setting?] at h
  split at h
  · cases h
    exact husual
  · exact hread _ _ h

private theorem named_of_session? {node : Node} {config : SessionConfig} (h : session? node = some config) :
    config.encoding ∈ Encoding.named := by
  simp only [session?, Option.bind_eq_bind, Option.bind_eq_some_iff, Option.some.injEq] at h
  obtain ⟨entries, -, transport, -, encoding, hencoding, autoDetect, -, version, -, strict, -, depth, -, text, -,
    container, -, frame, -, rfl⟩ := h
  exact of_setting? (.head _) (fun _ _ => mem_of_choice?) hencoding

private theorem named_of_ofText? {text : String} {settings : Settings} (h : ofText? text = some settings) :
    settings.session.encoding ∈ Encoding.named := by
  obtain ⟨node, -, hnode⟩ := Option.bind_eq_some_iff.mp h
  simp only [ofNode?, Option.bind_eq_bind, Option.bind_eq_some_iff, Option.some.injEq] at hnode
  obtain ⟨entries, -, network, -, session, hsession, rfl⟩ := hnode
  exact of_setting? (p := fun config : SessionConfig => config.encoding ∈ Encoding.named) (.head _)
    (fun _ _ => named_of_session?) hsession

/-! ## Loading -/

section
variable {parse : String → Option Settings} {environment : Environment} {readFile : String → Except IoError Bytes}
  {settings : Settings}

/-- The settings of the file that the environment names, or the usual ones where it names none. -/
def Given (parse : String → Option Settings) (environment : Environment) (readFile : String → Except IoError Bytes)
    (base : Settings) : Prop :=
  match environment "RTHRIFT_CONFIG" with
  | none => base = {}
  | some path => ofFileBy parse path (readFile path) = .ok base

def toldEncoding? (environment : Environment) : Option Encoding :=
  (environment "RTHRIFT_PROTOCOL").bind fun text => (Encoding.ofText text).toOption

private theorem parsed_of_ofFileBy {path : String} {content : Except IoError Bytes}
    (h : ofFileBy parse path content = .ok settings) : ∃ text, parse text = some settings := by
  rw [ofFileBy] at h
  cases content with
  | error cause => cases h
  | ok bytes =>
    dsimp only [Except.mapError, bind, Except.bind] at h
    split at h
    · cases h
    · next text _ =>
      split at h
      · cases h
      · next hparse =>
        cases h
        exact ⟨text, hparse⟩

private theorem ofFileBy_encode {text : String} (h : parse text = some settings) (path : String) :
    ofFileBy parse path (.ok (Utf8.encode text)) = .ok settings := by
  rw [ofFileBy]
  dsimp only [Except.mapError, bind, Except.bind]
  rw [Utf8.decode?_encode]
  dsimp only
  rw [h]
  rfl

/-- Settings that are given load with what the environment overrides, if they pass the check. -/
theorem loadBy_of_given {base : Settings} (h : Given parse environment readFile base) :
    loadBy parse environment readFile =
      ((base.override environment).validate.mapError .invalid).map fun _ => base.override environment := by
  rw [loadBy]
  unfold Given at h
  cases hconfig : environment "RTHRIFT_CONFIG" with
  | none =>
    rw [hconfig] at h
    cases h
    cases hvalid : (override environment {}).validate <;> simp only [bind, Except.bind, hvalid] <;> rfl
  | some path =>
    rw [hconfig] at h
    dsimp only at h ⊢
    cases hvalid : (override environment base).validate <;> simp only [h, bind, Except.bind, hvalid] <;> rfl

private theorem given_of_loadBy (h : loadBy parse environment readFile = .ok settings) :
    ∃ base, Given parse environment readFile base := by
  rw [loadBy] at h
  unfold Given
  cases hconfig : environment "RTHRIFT_CONFIG" with
  | none => exact ⟨{}, rfl⟩
  | some path =>
    rw [hconfig] at h
    dsimp only at h
    cases hfile : ofFileBy parse path (readFile path) with
    | error err =>
      rw [hfile] at h
      cases h
    | ok base => exact ⟨base, hfile⟩

/-- What loads comes from settings that are given, with what the environment overrides, and passes the check. -/
theorem loadBy_eq_ok_iff : loadBy parse environment readFile = .ok settings ↔
    ∃ base, Given parse environment readFile base ∧ base.override environment = settings ∧
      settings.validate = .ok () := by
  constructor
  · intro h
    obtain ⟨base, hgiven⟩ := given_of_loadBy h
    rw [loadBy_of_given hgiven] at h
    cases hvalid : (base.override environment).validate with
    | error flaw =>
      rw [hvalid] at h
      cases h
    | ok =>
      rw [hvalid] at h
      cases h
      exact ⟨base, hgiven, rfl, hvalid⟩
  · rintro ⟨base, hgiven, rfl, hvalid⟩
    rw [loadBy_of_given hgiven, hvalid]
    rfl

private theorem positive_of_validate (h : settings.validate = .ok ()) :
    0 < settings.session.recursionLimit ∧ 0 < settings.session.maxFrameSize := by
  rw [validate] at h
  split at h
  · cases h
  · next hdepth =>
    split at h
    · cases h
    · next hframe => exact ⟨Nat.pos_of_ne_zero hdepth, UInt32.pos_iff_ne_zero.mpr hframe⟩

private theorem named_of_toldEncoding? {encoding : Encoding} (h : toldEncoding? environment = some encoding) :
    encoding ∈ Encoding.named := by
  obtain ⟨text, -, htext⟩ := Option.bind_eq_some_iff.mp h
  cases hname : Encoding.ofText text with
  | error err =>
    rw [hname] at htext
    cases htext
  | ok found =>
    rw [hname] at htext
    cases htext
    exact Encoding.mem_named_of_ofText hname

private theorem named_of_given {base : Settings} (h : Given parse environment readFile base)
    (hparse : ∀ text parsed, parse text = some parsed → parsed.session.encoding ∈ Encoding.named) :
    base.session.encoding ∈ Encoding.named := by
  rw [Given] at h
  split at h
  · rw [h]
    exact .head _
  · obtain ⟨text, htext⟩ := parsed_of_ofFileBy h
    exact hparse text base htext

/-- The encoding is one that has a name if that of the file is. -/
theorem named_of_override {base : Settings} (h : base.session.encoding ∈ Encoding.named) :
    ((toldEncoding? environment).getD base.session.encoding) ∈ Encoding.named := by
  cases htold : toldEncoding? environment with
  | none => exact h
  | some encoding => exact named_of_toldEncoding? htold

/-- With settings that load, every connection is served and gives its buffer set back if there is a codec for the
encoding that the environment or the file names; otherwise every connection is dropped at once, and its buffer set with
it. Where documents name encodings only by the names that there are, JSON alone has no codec. -/
theorem loadBy_serves (h : loadBy parse environment readFile = .ok settings) :
    let config := settings.server.session
    (∃ base, Given parse environment readFile base ∧
      config.encoding = (toldEncoding? environment).getD base.session.encoding) ∧
    0 < config.recursionLimit ∧ 0 < config.maxFrameSize ∧
    ((∀ text parsed, parse text = some parsed → parsed.session.encoding ∈ Encoding.named) →
      (config.encoding.isSpoken = true ↔ config.encoding ≠ .json)) ∧
    (config.encoding.isSpoken = true → ∀ stream set, ∃ session,
      Session.onBuffers? config stream set = .ok session ∧
      ∀ processor most capacity pool,
        let (served, ending, last) := Session.serveWithin processor most session 0
        handle config processor most capacity stream pool =
          ⟨served, ending, last.stream.written, pool.get.2.put (last.buffers pool.get.1 capacity)⟩) ∧
    (config.encoding.isSpoken = false → ∀ stream set,
      Session.onBuffers? config stream set = .error (.unsupportedEncoding config.encoding) ∧
      ∀ processor most capacity pool, handle config processor most capacity stream pool =
        ⟨0, some (.failed (.wire (.unsupportedEncoding config.encoding))), stream.written, pool.get.2⟩) := by
  intro config
  obtain ⟨base, hgiven, rfl, hvalid⟩ := loadBy_eq_ok_iff.mp h
  obtain ⟨hdepth, hframe⟩ := positive_of_validate hvalid
  refine ⟨⟨base, hgiven, rfl⟩, hdepth, hframe, fun hparse => ?_, fun hspoken stream set => ?_,
    fun hspoken stream set => ?_⟩
  · have hnamed : config.encoding ∈ Encoding.named := named_of_override (named_of_given hgiven hparse)
    exact Encoding.isSpoken_iff_of_named hnamed
  · obtain ⟨session, hopen⟩ := Session.opens_of_isSpoken hspoken stream
    refine ⟨session, (Session.onBuffers?_eq ..).trans hopen, fun processor most capacity pool => ?_⟩
    simp only [handle, Session.onBuffers?_eq, hopen]
  · have hclosed := Session.unopened_of_not_isSpoken hspoken stream
    exact ⟨(Session.onBuffers?_eq ..).trans hclosed, fun processor most capacity pool =>
      handle_unmade hclosed processor most capacity pool⟩

end

/-! ## JSON -/

def environmentOf (entries : List (String × String)) : Environment := fun name => entries.lookup name

def jsonDocument : String := "protocol:\n  protocol: json\n  transport: header\n"

private theorem ofText?_jsonDocument :
    ofText? jsonDocument = some { session := { transport := .header, encoding := .json } } := by
  decide +kernel

/-- A file that names JSON, where the environment asks for the compact encoding instead. -/
theorem loadBy_serves_overridden :
    let environment := environmentOf [("RTHRIFT_CONFIG", "rthrift.yaml"), ("RTHRIFT_PROTOCOL", "Compact")]
    let settings : Settings := { session := { transport := .header, encoding := .compact } }
    loadBy ofText? environment (fun _ => .ok (Utf8.encode jsonDocument)) = .ok settings ∧
      ∀ stream set, ∃ session, Session.onBuffers? settings.server.session stream set = .ok session := by
  intro environment settings
  have hload : loadBy ofText? environment (fun _ => .ok (Utf8.encode jsonDocument)) = .ok settings :=
    loadBy_eq_ok_iff.mpr ⟨_, ofFileBy_encode ofText?_jsonDocument _, by decide +kernel, rfl⟩
  refine ⟨hload, fun stream set => ?_⟩
  obtain ⟨-, -, -, hspoken, hserves, -⟩ := loadBy_serves hload
  have hcompact := (hspoken fun _ _ => named_of_ofText?).mpr (by decide)
  obtain ⟨session, hopen, -⟩ := hserves hcompact stream set
  exact ⟨session, hopen⟩

/-- JSON passes the check, and no connection is served. -/
theorem json_loads_unserved :
    let settings : Settings := { session := { transport := .header, encoding := .json } }
    load (environmentOf [("RTHRIFT_CONFIG", "rthrift.yaml")]) (fun _ => .ok (Utf8.encode jsonDocument)) =
        .ok settings ∧
      (∀ stream set, Session.onBuffers? settings.server.session stream set = .error (.unsupportedEncoding .json)) ∧
      ¬∀ (environment : Environment) (readFile : String → Except IoError Bytes) (settings : Settings),
        load environment readFile = .ok settings →
          ∀ stream set, ∃ session, Session.onBuffers? settings.server.session stream set = .ok session := by
  intro settings
  have hload : load (environmentOf [("RTHRIFT_CONFIG", "rthrift.yaml")])
      (fun _ => .ok (Utf8.encode jsonDocument)) = .ok settings :=
    loadBy_eq_ok_iff.mpr ⟨_, ofFileBy_encode ofText?_jsonDocument _, by decide +kernel, rfl⟩
  have hclosed (stream : Stream) (set : BufferSet) :
      Session.onBuffers? settings.server.session stream set = .error (.unsupportedEncoding .json) := rfl
  refine ⟨hload, hclosed, fun hall => ?_⟩
  obtain ⟨session, hopen⟩ := hall _ _ settings hload {} (.fresh 0)
  rw [hclosed] at hopen
  cases hopen

end Settings
end RpcWire
