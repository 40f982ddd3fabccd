import DashBeam.Lib.Framing
import DashBeam.Lib.Unicode
import DashBeam.Protocol.Control

/-!
# Control messages and metadata on the wire

`write_message` and `read_message` put the JSON of a control message into a frame of at most 1 MiB.
The metadata protocol does the same with its own limit of 8 MiB, after the client has sent a request
marker. JSON is serde's and enters as a codec; the streams are those of `Lib.Framing`, where an
operation can fail at any byte.
-/

namespace DashBeam.Protocol

open Lib

/-! ## Control messages -/

def maxControlMessage : Nat := 1024 * 1024

def writeMessage (J : Codec ControlMessage) (message : ControlMessage) : Action Outgoing Unit := do
  let body ← Action.ofExcept (J.toVec message)
  ensure (body.length ≤ maxControlMessage) (.text "control message too large")
  writeAll (toBE 4 body.length)
  writeAll body
  flush

def readMessage (J : Codec ControlMessage) : Action Incoming ControlMessage := do
  let lenBuf ← readExact 4
  let len := ofBE lenBuf
  ensure (len > 0 && len ≤ maxControlMessage) (.text "invalid control message length")
  let body ← readExact len
  Action.ofExcept (J.fromSlice body)

/-! ## The metadata exchange -/

structure FilePreviewItem where
  fileName : Text
  size : Nat
  thumbnail : Option Text
  mimeType : Option Text
  deriving DecidableEq, Repr

structure FileMetadata where
  fileName : Text
  itemCount : Nat
  size : Nat
  thumbnail : Option Text
  mimeType : Option Text
  items : Option (List FilePreviewItem)
  deriving DecidableEq, Repr

def maxMetadataBytes : Nat := 8 * 1024 * 1024

structure MetadataProtocol where
  metadata : Option FileMetadata
  deriving DecidableEq, Repr

/-- The two ends of an accepted stream. -/
structure BiStream where
  sendStream : Outgoing
  recvStream : Incoming
  deriving DecidableEq, Repr

namespace BiStream

def onSend {α : Type} (x : Action Outgoing α) : Action BiStream α := fun s =>
  ((x s.sendStream).1, { s with sendStream := (x s.sendStream).2 })

def onRecv {α : Type} (x : Action Incoming α) : Action BiStream α := fun s =>
  ((x s.recvStream).1, { s with recvStream := (x s.recvStream).2 })

end BiStream

/-- `MetadataProtocol::accept`, from the accepted stream on. -/
def MetadataProtocol.accept (M : Codec FileMetadata) (protocol : MetadataProtocol) :
    Action BiStream Unit := do
  let req ← BiStream.onRecv (readExact 1)
  if req ≠ [1] then
    Action.fail (.text s!"invalid metadata request marker: {ofBE req}")
  else
    match protocol.metadata with
    | none => Action.fail (.text "metadata unavailable")
    | some payload =>
      let metaBytes ← Action.ofExcept (M.toVec payload)
      if metaBytes.length > maxMetadataBytes then
        Action.fail (.text s!"metadata payload too large: {metaBytes.length} bytes")
      else
        BiStream.onSend (writeAll (toBE 4 metaBytes.length))
        BiStream.onSend (writeAll metaBytes)
        BiStream.onSend flush

/-- What the receiving side of a metadata request has: the stream and the events it emitted. -/
structure MetadataReader where
  stream : Incoming
  emitted : List (String × Bytes)
  deriving DecidableEq, Repr

namespace MetadataReader

def onStream {α : Type} (x : Action Incoming α) : Action MetadataReader α := fun s =>
  ((x s.stream).1, { s with stream := (x s.stream).2 })

def emit (event : String) (payload : Bytes) : Action MetadataReader Unit := fun s =>
  (.ok (), { s with emitted := s.emitted ++ [(event, payload)] })

end MetadataReader

/-- The event for the frontend, where there is an app handle. Its failures are only logged. -/
def emitFileMetadata (M : Codec FileMetadata) (appHandle : Bool) (metadata : FileMetadata) :
    Action MetadataReader Unit :=
  match appHandle, M.toVec metadata with
  | true, .ok payload => MetadataReader.emit "receive-file-metadata" payload
  | _, _ => pure ()

def receiveMetadata (M : Codec FileMetadata) (appHandle : Bool) :
    Action MetadataReader FileMetadata := do
  let lenBuf ← Action.withContext "metadata read length failed"
    (MetadataReader.onStream (readExact 4))
  let metaLen := ofBE lenBuf
  ensure (metaLen > 0 && metaLen ≤ maxMetadataBytes)
    (.text s!"invalid metadata length: {metaLen}")
  let metaBuf ← Action.withContext "metadata read body failed"
    (MetadataReader.onStream (readExact metaLen))
  let metadata ← Action.withContext "metadata json decode failed"
    (Action.ofExcept (M.fromSlice metaBuf))
  emitFileMetadata M appHandle metadata
  pure metadata

/-- The sender's side of one exchange: what `accept` writes to a client whose request is `request`. -/
def answerMetadata (M : Codec FileMetadata) (request : Incoming) (metadata : FileMetadata) :
    Action Outgoing Unit := fun out =>
  let r := MetadataProtocol.accept M ⟨some metadata⟩ ⟨out, request⟩
  (r.1, r.2.sendStream)

/-- The receiver's side of one exchange. -/
def readMetadata (M : Codec FileMetadata) (appHandle : Bool) : Action Incoming FileMetadata :=
  fun s =>
  let r := receiveMetadata M appHandle ⟨s, []⟩
  (r.1, r.2.stream)

/-! ## What one write and one read do -/

/-- Two exact reads around a length check, as both readers do it, take one frame. -/
theorem readFrame {s : Incoming} {body rest : Bytes} (h : s.bytes = frame body ++ rest)
    (hlength : body.length < 256 ^ 4) :
    ∃ t t', readExact 4 s = (.ok (toBE 4 body.length), t) ∧
      ofBE (toBE 4 body.length) = body.length ∧
      readExact body.length t = (.ok body, t') ∧ t'.bytes = rest := by
  rw [frame, List.append_assoc] at h
  obtain ⟨t, hlen, ht, -⟩ := readExact_append h
  obtain ⟨t', hbody, ht', -⟩ := readExact_append ht
  rw [length_toBE] at hlen
  exact ⟨t, t', hlen, ofBE_toBE_of_lt hlength, hbody, ht'⟩

theorem frame_of_reads {s t t' : Incoming} {lenBuf body : Bytes}
    (hlen : readExact 4 s = (.ok lenBuf, t)) (hbody : readExact (ofBE lenBuf) t = (.ok body, t')) :
    s.bytes = frame body ++ t'.bytes ∧ body.length = ofBE lenBuf := by
  obtain ⟨hs, hlenLength⟩ := readExact_eq_ok hlen
  obtain ⟨ht, hbodyLength⟩ := readExact_eq_ok hbody
  have hbuf : toBE 4 (ofBE lenBuf) = lenBuf := by
    rw [← hlenLength]
    exact toBE_ofBE lenBuf
  refine ⟨?_, hbodyLength⟩
  rw [hs, ht, frame, hbodyLength, hbuf, List.append_assoc]

theorem length_ok {n limit : Nat} (hpos : 1 ≤ n) (hle : n ≤ limit) :
    (decide (n > 0) && decide (n ≤ limit)) = true := by
  simp only [Bool.and_eq_true, decide_eq_true_eq]
  omega

theorem writeMessage_open {J : Codec ControlMessage} {message : ControlMessage} {body : Bytes}
    {out : Outgoing} (hbody : J.toVec message = .ok body) (hlength : body.length ≤ maxControlMessage)
    (hout : out.Open) :
    writeMessage J message out = (.ok (), { out with written := out.written ++ frame body }) := by
  rw [writeMessage, hbody, Action.bind_of_ok (Action.ofExcept_eq_ok.mpr ⟨rfl, rfl⟩),
    Action.bind_of_ok (Action.ensure_of_true (decide_eq_true hlength) _ _),
    Action.bind_of_ok (writeAll_open hout _), Action.bind_of_ok (writeAll_open (hout.append _) _),
    flush_open ((hout.append _).append _), List.append_assoc]
  rfl

theorem writeMessage_tooLarge {J : Codec ControlMessage} {message : ControlMessage} {body : Bytes}
    {out : Outgoing} (hbody : J.toVec message = .ok body)
    (hlength : maxControlMessage < body.length) :
    writeMessage J message out = (.error (.text "control message too large"), out) := by
  have hfalse : ¬ decide (body.length ≤ maxControlMessage) = true := by
    rw [decide_eq_true_eq]
    omega
  rw [writeMessage, hbody, Action.bind_of_ok (Action.ofExcept_eq_ok.mpr ⟨rfl, rfl⟩),
    Action.bind_of_error (Action.ensure_of_false hfalse _ _)]

theorem readMessage_frame {J : Codec ControlMessage} {s : Incoming} {body rest : Bytes}
    {message : ControlMessage} (hs : s.bytes = frame body ++ rest) (hpos : 1 ≤ body.length)
    (hlength : body.length ≤ maxControlMessage) (hbody : J.fromSlice body = .ok message) :
    ∃ s', readMessage J s = (.ok message, s') ∧ s'.bytes = rest := by
  have hlt : maxControlMessage < 256 ^ 4 := by decide
  obtain ⟨t, t', hlen, hof, hread, ht'⟩ := readFrame hs (by omega)
  refine ⟨t', ?_, ht'⟩
  rw [readMessage, Action.bind_of_ok hlen]
  simp only [hof]
  rw [Action.bind_of_ok (Action.ensure_of_true (length_ok hpos hlength) _ _),
    Action.bind_of_ok hread, hbody]
  exact Action.ofExcept_eq_ok.mpr ⟨rfl, rfl⟩

theorem readMessage_accepted {J : Codec ControlMessage} {s s' : Incoming}
    {message : ControlMessage} (h : readMessage J s = (.ok message, s')) :
    ∃ body, s.bytes = frame body ++ s'.bytes ∧ 1 ≤ body.length ∧
      body.length ≤ maxControlMessage ∧ J.fromSlice body = .ok message := by
  obtain ⟨lenBuf, t, hlen, h⟩ := Action.bind_eq_ok.mp h
  obtain ⟨_, t₁, hensure, h⟩ := Action.bind_eq_ok.mp h
  obtain ⟨hok, rfl⟩ := Action.ensure_eq_ok.mp hensure
  obtain ⟨body, t', hbody, h⟩ := Action.bind_eq_ok.mp h
  obtain ⟨hmessage, rfl⟩ := Action.ofExcept_eq_ok.mp h
  obtain ⟨hs, hlength⟩ := frame_of_reads hlen hbody
  simp only [Bool.and_eq_true, decide_eq_true_eq] at hok
  exact ⟨body, hs, by omega, by omega, hmessage⟩

theorem writeMessage_readMessage_law (J : Codec ControlMessage) :
    FramingLaw J maxControlMessage (writeMessage J) (readMessage J) :=
  FramingLaw.of_one (by decide) writeMessage_open
    (fun hbody hlength => ⟨_, writeMessage_tooLarge hbody hlength⟩) readMessage_frame
    readMessage_accepted

/-! The metadata exchange goes through the two ends of a stream and a context for each read. -/

theorem onRecv_eq {α : Type} {x : Action Incoming α} {out : Outgoing} {recv recv' : Incoming}
    {r : Except Failure α} (h : x recv = (r, recv')) :
    BiStream.onRecv x ⟨out, recv⟩ = (r, ⟨out, recv'⟩) := by
  rw [BiStream.onRecv, h]

theorem onSend_eq {α : Type} {x : Action Outgoing α} {out out' : Outgoing} {recv : Incoming}
    {r : Except Failure α} (h : x out = (r, out')) :
    BiStream.onSend x ⟨out, recv⟩ = (r, ⟨out', recv⟩) := by
  rw [BiStream.onSend, h]

theorem accept_of_request {M : Codec FileMetadata} {metadata : FileMetadata} {body rest : Bytes}
    {request : Incoming} (hrequest : request.bytes = 1 :: rest)
    (hbody : M.toVec metadata = .ok body) (out : Outgoing) :
    ∃ recv, MetadataProtocol.accept M ⟨some metadata⟩ ⟨out, request⟩ =
      (if body.length > maxMetadataBytes then
        Action.fail (.text s!"metadata payload too large: {body.length} bytes")
      else do
        BiStream.onSend (writeAll (toBE 4 body.length))
        BiStream.onSend (writeAll body)
        BiStream.onSend flush) ⟨out, recv⟩ := by
  obtain ⟨recv, hread, -, -⟩ := readExact_append (show request.bytes = [1] ++ rest from hrequest)
  rw [List.length_singleton] at hread
  refine ⟨recv, ?_⟩
  rw [MetadataProtocol.accept, Action.bind_of_ok (onRecv_eq hread), if_neg (by simp)]
  simp only [hbody]
  rw [Action.bind_of_ok (Action.ofExcept_eq_ok.mpr ⟨rfl, rfl⟩)]

theorem answerMetadata_open {M : Codec FileMetadata} {request : Incoming} {rest : Bytes}
    (hrequest : request.bytes = 1 :: rest) {metadata : FileMetadata} {body : Bytes}
    {out : Outgoing} (hbody : M.toVec metadata = .ok body) (hlength : body.length ≤ maxMetadataBytes)
    (hout : out.Open) :
    answerMetadata M request metadata out =
      (.ok (), { out with written := out.written ++ frame body }) := by
  obtain ⟨recv, haccept⟩ := accept_of_request hrequest hbody out
  rw [answerMetadata, haccept, if_neg (by omega),
    Action.bind_of_ok (onSend_eq (writeAll_open hout _)),
    Action.bind_of_ok (onSend_eq (writeAll_open (hout.append _) _)),
    onSend_eq (flush_open ((hout.append _).append _)), List.append_assoc]
  rfl

theorem answerMetadata_tooLarge {M : Codec FileMetadata} {request : Incoming} {rest : Bytes}
    (hrequest : request.bytes = 1 :: rest) {metadata : FileMetadata} {body : Bytes}
    {out : Outgoing} (hbody : M.toVec metadata = .ok body)
    (hlength : maxMetadataBytes < body.length) :
    ∃ e, answerMetadata M request metadata out = (.error e, out) := by
  obtain ⟨recv, haccept⟩ := accept_of_request hrequest hbody out
  refine ⟨.text s!"metadata payload too large: {body.length} bytes", ?_⟩
  rw [answerMetadata, haccept, if_pos hlength]
  rfl

/-- A client that does not ask for metadata, or asks a sender that has none, is sent nothing. -/
theorem accept_refused {M : Codec FileMetadata} {protocol : MetadataProtocol} {out : Outgoing}
    {request : Incoming} (h : (∀ rest, request.bytes ≠ 1 :: rest) ∨ protocol.metadata = none) :
    ∃ e recv, MetadataProtocol.accept M protocol ⟨out, request⟩ = (.error e, ⟨out, recv⟩) := by
  rcases hread : readExact 1 request with ⟨e | req, recv⟩
  · exact ⟨e, recv, Action.bind_of_error (onRecv_eq hread)⟩
  · rw [MetadataProtocol.accept, Action.bind_of_ok (onRecv_eq hread)]
    by_cases hreq : req = [1]
    · subst hreq
      rw [if_neg (by simp)]
      rcases h with hne | hnone
      · exact absurd (readExact_eq_ok hread).1 (hne _)
      · rw [hnone]
        exact ⟨_, recv, rfl⟩
    · rw [if_pos hreq]
      exact ⟨_, recv, rfl⟩

theorem onStream_eq_ok {α : Type} {x : Action Incoming α} {s s' : MetadataReader} {a : α} :
    MetadataReader.onStream x s = (.ok a, s') ↔
      x s.stream = (.ok a, s'.stream) ∧ s'.emitted = s.emitted := by
  rw [MetadataReader.onStream]
  constructor
  · intro h
    obtain ⟨hok, rfl⟩ := Prod.mk.inj h
    exact ⟨Prod.ext hok rfl, rfl⟩
  · rintro ⟨hx, hemitted⟩
    rw [hx, ← hemitted]

theorem onStream_read {n : Nat} {s t : Incoming} {taken : Bytes}
    (h : readExact n s = (.ok taken, t)) (message : String) (emitted : List (String × Bytes)) :
    Action.withContext message (MetadataReader.onStream (readExact n)) ⟨s, emitted⟩ =
      (.ok taken, ⟨t, emitted⟩) :=
  Action.withContext_eq_ok.mpr (onStream_eq_ok.mpr ⟨h, rfl⟩)

/-- The event changes neither the result nor the stream. -/
theorem emitFileMetadata_eq (M : Codec FileMetadata) (appHandle : Bool) (metadata : FileMetadata)
    (s : MetadataReader) :
    ∃ emitted, emitFileMetadata M appHandle metadata s =
      (.ok (), { s with emitted := emitted }) := by
  unfold emitFileMetadata
  cases appHandle with
  | false => exact ⟨s.emitted, rfl⟩
  | true =>
    cases M.toVec metadata with
    | error e => exact ⟨s.emitted, rfl⟩
    | ok payload => exact ⟨s.emitted ++ [("receive-file-metadata", payload)], rfl⟩

theorem readMetadata_frame {M : Codec FileMetadata} {appHandle : Bool} {s : Incoming}
    {body rest : Bytes} {metadata : FileMetadata} (hs : s.bytes = frame body ++ rest)
    (hpos : 1 ≤ body.length) (hlength : body.length ≤ maxMetadataBytes)
    (hbody : M.fromSlice body = .ok metadata) :
    ∃ s', readMetadata M appHandle s = (.ok metadata, s') ∧ s'.bytes = rest := by
  have hlt : maxMetadataBytes < 256 ^ 4 := by decide
  obtain ⟨t, t', hlen, hof, hread, ht'⟩ := readFrame hs (by omega)
  obtain ⟨emitted, hemit⟩ := emitFileMetadata_eq M appHandle metadata ⟨t', []⟩
  have hrun : receiveMetadata M appHandle ⟨s, []⟩ = (.ok metadata, ⟨t', emitted⟩) := by
    rw [receiveMetadata, Action.bind_of_ok (onStream_read hlen _ _)]
    simp only [hof]
    rw [Action.bind_of_ok (Action.ensure_of_true (length_ok hpos hlength) _ _),
      Action.bind_of_ok (onStream_read hread _ _),
      Action.bind_of_ok (Action.withContext_eq_ok.mpr (Action.ofExcept_eq_ok.mpr ⟨hbody, rfl⟩)),
      Action.bind_of_ok hemit]
    rfl
  refine ⟨t', ?_, ht'⟩
  rw [readMetadata, hrun]

theorem readMetadata_accepted {M : Codec FileMetadata} {appHandle : Bool} {s s' : Incoming}
    {metadata : FileMetadata} (h : readMetadata M appHandle s = (.ok metadata, s')) :
    ∃ body, s.bytes = frame body ++ s'.bytes ∧ 1 ≤ body.length ∧
      body.length ≤ maxMetadataBytes ∧ M.fromSlice body = .ok metadata := by
  obtain ⟨hok, rfl⟩ := Prod.mk.inj h
  have hrun : receiveMetadata M appHandle ⟨s, []⟩ =
      (.ok metadata, (receiveMetadata M appHandle ⟨s, []⟩).2) := Prod.ext hok rfl
  generalize (receiveMetadata M appHandle ⟨s, []⟩).2 = final at hrun ⊢
  obtain ⟨lenBuf, t, hlen, hrun⟩ := Action.bind_eq_ok.mp hrun
  obtain ⟨_, t₁, hensure, hrun⟩ := Action.bind_eq_ok.mp hrun
  obtain ⟨hlength, rfl⟩ := Action.ensure_eq_ok.mp hensure
  obtain ⟨body, t', hbody, hrun⟩ := Action.bind_eq_ok.mp hrun
  obtain ⟨metadata', t₂, hfrom, hrun⟩ := Action.bind_eq_ok.mp hrun
  obtain ⟨hslice, rfl⟩ := Action.ofExcept_eq_ok.mp (Action.withContext_eq_ok.mp hfrom)
  obtain ⟨hlen, -⟩ := onStream_eq_ok.mp (Action.withContext_eq_ok.mp hlen)
  obtain ⟨hbody, -⟩ := onStream_eq_ok.mp (Action.withContext_eq_ok.mp hbody)
  obtain ⟨hs, heq⟩ := frame_of_reads hlen hbody
  obtain ⟨_, t₃, hemit, hrun⟩ := Action.bind_eq_ok.mp hrun
  obtain ⟨rfl, rfl⟩ := Action.pure_eq_ok.mp hrun
  obtain ⟨emitted, hemitted⟩ := emitFileMetadata_eq M appHandle metadata' t'
  have hfinal := (Prod.mk.inj (hemitted.symm.trans hemit)).2
  simp only [Bool.and_eq_true, decide_eq_true_eq] at hlength
  refine ⟨body, ?_, by omega, by omega, hslice⟩
  rw [hs, ← hfinal]

theorem answerMetadata_readMetadata_law (M : Codec FileMetadata) (appHandle : Bool)
    {request : Incoming} {rest : Bytes} (hrequest : request.bytes = 1 :: rest) :
    FramingLaw M maxMetadataBytes (answerMetadata M request) (readMetadata M appHandle) :=
  FramingLaw.of_one (by decide) (answerMetadata_open hrequest) (answerMetadata_tooLarge hrequest)
    readMetadata_frame readMetadata_accepted

/-- Both pairs of a writer and a reader obey the framing law, each with its limit: control messages
with 1 MiB and, once the client has sent its marker, metadata with 8 MiB. -/
theorem control_and_metadata_framing (J : Codec ControlMessage) (M : Codec FileMetadata) :
    FramingLaw J maxControlMessage (writeMessage J) (readMessage J) ∧
    ∀ (request : Incoming) (rest : Bytes), request.bytes = 1 :: rest → ∀ appHandle : Bool,
      FramingLaw M maxMetadataBytes (answerMetadata M request) (readMetadata M appHandle) := by
  refine ⟨writeMessage_readMessage_law J, ?_⟩
  intro request rest hrequest appHandle
  exact answerMetadata_readMetadata_law M appHandle hrequest

def oneValueCodec {μ : Type} [DecidableEq μ] (value : μ) (json : Bytes) (hjson : json ≠ []) :
    Codec μ where
  toVec m := if m = value then .ok json else .error (.json "not this value")
  fromSlice body := if body = json then .ok value else .error (.json "not this value")
  roundTrip := by
    intro m body h
    split at h
    · rename_i hm
      obtain rfl := Except.ok.inj h
      rw [if_pos rfl, hm]
    · cases h
  nothing := by
    intro m h
    rw [if_neg (Ne.symm hjson)] at h
    cases h

/-- `{"type":"who-are-you"}` -/
def whoAreYouJson : Bytes :=
  [123, 34, 116, 121, 112, 101, 34, 58, 34, 119, 104, 111, 45, 97, 114, 101, 45, 121, 111, 117, 34,
    125]

def oneFile : FileMetadata := ⟨['a'], 1, 2, none, none, none⟩

/-- `{"file_name":"a","item_count":1,"size":2}` -/
def oneFileJson : Bytes :=
  [123, 34, 102, 105, 108, 101, 95, 110, 97, 109, 101, 34, 58, 34, 97, 34, 44, 34, 105, 116, 101,
    109, 95, 99, 111, 117, 110, 116, 34, 58, 49, 44, 34, 115, 105, 122, 101, 34, 58, 50, 125]

/-- Two questions, and one metadata answer, make the round trip. -/
theorem framing_who_are_you :
    (∃ out' bytes,
      Action.each (writeMessage (oneValueCodec .whoAreYou whoAreYouJson (by decide)))
        [.whoAreYou, .whoAreYou] ⟨[], none, none⟩ = (.ok (), out') ∧ out'.written = [] ++ bytes ∧
      ∀ s : Incoming, s.bytes = bytes →
        ∃ s', Action.times (readMessage (oneValueCodec .whoAreYou whoAreYouJson (by decide))) 2 s =
          (.ok [.whoAreYou, .whoAreYou], s') ∧ s'.bytes = []) ∧
    FramingLaw (oneValueCodec oneFile oneFileJson (by decide)) maxMetadataBytes
      (answerMetadata (oneValueCodec oneFile oneFileJson (by decide)) ⟨[[1]], none⟩)
      (readMetadata (oneValueCodec oneFile oneFileJson (by decide)) true) := by
  have hlaw := control_and_metadata_framing
    (oneValueCodec .whoAreYou whoAreYouJson (by decide))
    (oneValueCodec oneFile oneFileJson (by decide))
  refine ⟨?_, hlaw.2 ⟨[[1]], none⟩ [] rfl true⟩
  have hbodies : ∀ m ∈ [ControlMessage.whoAreYou, ControlMessage.whoAreYou], ∃ body,
      (oneValueCodec .whoAreYou whoAreYouJson (by decide)).toVec m = .ok body ∧
        body.length ≤ maxControlMessage := by
    intro m hm
    simp only [List.mem_cons, List.not_mem_nil, or_false, or_self] at hm
    subst hm
    exact ⟨whoAreYouJson, rfl, by decide⟩
  exact hlaw.1.roundTrip _ hbodies ⟨[], none, none⟩ ⟨rfl, rfl⟩

end DashBeam.Protocol
