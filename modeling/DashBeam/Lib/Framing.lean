import DashBeam.Lib.Bytes

/-!
# Length-prefixed frames over byte streams

A reader gets the bytes of a stream in pieces of any sizes, and `readExact` puts pieces together
until it has what was asked for. A writer's sink may fail after any number of bytes. A frame is the
length of a body in four bytes, most significant first, and the body; `FramingLaw` is what a writer
and a reader of such frames owe each other.
-/

namespace Lib

/-! ## Actions on a stream -/

/-- What went wrong, as the error's text is put together. -/
inductive Failure
  /-- A read past the end of the stream. -/
  | earlyEof
  /-- An error of the transport, or a timeout. -/
  | io (cause : String)
  | json (cause : String)
  | text (message : String)
  | context (message : String) (cause : Failure)
  deriving DecidableEq, Repr

/-- `anyhow::ensure!`. -/
def ensure {m : Type → Type} {ε : Type} [Monad m] [MonadExcept ε m] (ok : Bool) (e : ε) : m Unit :=
  if ok then pure () else throw e

/-- A fallible action: its result and the state it leaves, also when it fails. -/
def Action (σ α : Type) : Type := σ → Except Failure α × σ

namespace Action

variable {σ α β : Type}

instance : Monad (Action σ) where
  pure a := fun s => (.ok a, s)
  bind x f := fun s =>
    match x s with
    | (.ok a, s') => f a s'
    | (.error e, s') => (.error e, s')

def fail (e : Failure) : Action σ α := fun s => (.error e, s)

instance : MonadExcept Failure (Action σ) where
  throw := fail
  tryCatch x handle := fun s =>
    match x s with
    | (.ok a, s') => (.ok a, s')
    | (.error e, s') => handle e s'

/-- `?` on a result. -/
def ofExcept : Except Failure α → Action σ α
  | .ok a => pure a
  | .error e => fail e

/-- `map_err` that puts a text before the cause. -/
def withContext (message : String) (x : Action σ α) : Action σ α := fun s =>
  match x s with
  | (.ok a, s') => (.ok a, s')
  | (.error e, s') => (.error (.context message e), s')

/-- An action run `n` times. -/
def times (x : Action σ α) : Nat → Action σ (List α)
  | 0 => pure []
  | n + 1 => do
    let a ← x
    let as ← times x n
    pure (a :: as)

/-- An action run for each element of a list. -/
def each (x : α → Action σ Unit) : List α → Action σ Unit
  | [] => pure ()
  | a :: as => do
    x a
    each x as

theorem bind_of_ok {x : Action σ α} {f : α → Action σ β} {s s' : σ} {a : α}
    (h : x s = (.ok a, s')) : (x >>= f) s = f a s' := by
  change (match x s with | (.ok a, s') => f a s' | (.error e, s') => (.error e, s')) = f a s'
  rw [h]

theorem bind_of_error {x : Action σ α} {f : α → Action σ β} {s s' : σ} {e : Failure}
    (h : x s = (.error e, s')) : (x >>= f) s = (.error e, s') := by
  change (match x s with | (.ok a, s') => f a s' | (.error e, s') => (.error e, s')) = _
  rw [h]

theorem bind_eq_ok {x : Action σ α} {f : α → Action σ β} {s s'' : σ} {b : β} :
    (x >>= f) s = (.ok b, s'') ↔ ∃ a s', x s = (.ok a, s') ∧ f a s' = (.ok b, s'') := by
  constructor
  · intro h
    rcases hx : x s with ⟨e | a, s'⟩
    · rw [bind_of_error hx] at h
      cases h
    · rw [bind_of_ok hx] at h
      exact ⟨a, s', rfl, h⟩
  · rintro ⟨a, s', hx, h⟩
    rw [bind_of_ok hx]
    exact h

theorem pure_eq_ok {s s' : σ} {a b : α} :
    (pure a : Action σ α) s = (.ok b, s') ↔ a = b ∧ s = s' := by
  change (Except.ok a, s) = (Except.ok b, s') ↔ _
  rw [Prod.mk.injEq, Except.ok.injEq]

theorem ensure_of_true {ok : Bool} (h : ok = true) (e : Failure) (s : σ) :
    (ensure ok e : Action σ Unit) s = (.ok (), s) := by
  rw [ensure, if_pos h]
  rfl

theorem ensure_of_false {ok : Bool} (h : ¬ ok = true) (e : Failure) (s : σ) :
    (ensure ok e : Action σ Unit) s = (.error e, s) := by
  rw [ensure, if_neg h]
  rfl

theorem ensure_eq_ok {ok : Bool} {e : Failure} {s s' : σ} {u : Unit} :
    (ensure ok e : Action σ Unit) s = (.ok u, s') ↔ ok = true ∧ s = s' := by
  by_cases h : ok = true
  · rw [ensure_of_true h]
    simp [h]
  · rw [ensure_of_false h]
    simp [h]

theorem ofExcept_eq_ok {r : Except Failure α} {s s' : σ} {a : α} :
    ofExcept r s = (.ok a, s') ↔ r = .ok a ∧ s = s' := by
  cases r with
  | error e => simp [ofExcept, fail]
  | ok b => simpa [ofExcept] using pure_eq_ok

theorem withContext_eq_ok {message : String} {x : Action σ α} {s s' : σ} {a : α} :
    withContext message x s = (.ok a, s') ↔ x s = (.ok a, s') := by
  rw [withContext]
  rcases x s with ⟨e | b, t⟩
  · simp
  · simp

end Action

/-! ## Streams -/

/-- The receiving end of a stream: the pieces still to come, and what ends it, the other side's end
of stream or an error. -/
structure Incoming where
  pieces : List Bytes
  fault : Option String
  deriving DecidableEq, Repr

def Incoming.bytes (s : Incoming) : Bytes := s.pieces.flatten

/-- The first `n` bytes of pieces, and the pieces left. -/
def splitPieces (n : Nat) : List Bytes → Option (Bytes × List Bytes)
  | [] => if n = 0 then some ([], []) else none
  | piece :: pieces =>
    if n ≤ piece.length then some (piece.take n, piece.drop n :: pieces)
    else (splitPieces (n - piece.length) pieces).map fun r => (piece ++ r.1, r.2)

/-- `AsyncReadExt::read_exact`. What was read before a failure is lost. -/
def readExact (n : Nat) : Action Incoming Bytes := fun s =>
  match splitPieces n s.pieces with
  | some (taken, rest) => (.ok taken, { s with pieces := rest })
  | none =>
    (.error (match s.fault with | some cause => .io cause | none => .earlyEof),
      { s with pieces := [] })

/-- The sending end of a stream: what was written, how many more bytes it takes before it fails, if
it does, and whether ending a message fails. -/
structure Outgoing where
  written : Bytes
  room : Option (Nat × String)
  flushFault : Option String
  deriving DecidableEq, Repr

/-- A sink on which no operation fails. -/
def Outgoing.Open (s : Outgoing) : Prop := s.room = none ∧ s.flushFault = none

def writeAll (bytes : Bytes) : Action Outgoing Unit := fun s =>
  match s.room with
  | none => (.ok (), { s with written := s.written ++ bytes })
  | some (room, cause) =>
    if bytes.length ≤ room then
      (.ok (), { s with written := s.written ++ bytes, room := some (room - bytes.length, cause) })
    else
      (.error (.io cause), { s with written := s.written ++ bytes.take room, room := some (0, cause) })

/-- `flush`, and `finish` of a QUIC stream. -/
def flush : Action Outgoing Unit := fun s =>
  match s.flushFault with
  | none => (.ok (), s)
  | some cause => (.error (.io cause), s)

theorem splitPieces_eq_some {n : Nat} {pieces : List Bytes} (h : n ≤ pieces.flatten.length) :
    ∃ rest, splitPieces n pieces = some (pieces.flatten.take n, rest) ∧
      rest.flatten = pieces.flatten.drop n := by
  induction pieces generalizing n with
  | nil =>
    obtain rfl : n = 0 := Nat.le_zero.mp h
    exact ⟨[], rfl, rfl⟩
  | cons piece pieces ih =>
    rw [List.flatten_cons] at h ⊢
    rw [List.length_append] at h
    by_cases hn : n ≤ piece.length
    · refine ⟨piece.drop n :: pieces, ?_, ?_⟩
      · rw [splitPieces, if_pos hn, List.take_append_of_le_length hn]
      · rw [List.flatten_cons, List.drop_append_of_le_length hn]
    · obtain ⟨rest, hsplit, hrest⟩ := ih (n := n - piece.length) (by omega)
      refine ⟨rest, ?_, ?_⟩
      · rw [splitPieces, if_neg hn, hsplit, Option.map_some, List.take_append,
          List.take_of_length_le (Nat.le_of_not_le hn)]
      · rw [hrest, List.drop_append, List.drop_eq_nil_of_le (Nat.le_of_not_le hn),
          List.nil_append]

theorem splitPieces_eq_none {n : Nat} {pieces : List Bytes} (h : pieces.flatten.length < n) :
    splitPieces n pieces = none := by
  induction pieces generalizing n with
  | nil =>
    have hn : n ≠ 0 := Nat.ne_zero_of_lt h
    rw [splitPieces, if_neg hn]
  | cons piece pieces ih =>
    rw [List.flatten_cons, List.length_append] at h
    rw [splitPieces, if_neg (by omega), ih (by omega)]
    rfl

/-- However the bytes are cut into pieces, reading takes them from the front, or fails when there are
too few. -/
theorem readExact_append {s : Incoming} {taken rest : Bytes} (h : s.bytes = taken ++ rest) :
    ∃ s', readExact taken.length s = (.ok taken, s') ∧ s'.bytes = rest ∧ s'.fault = s.fault := by
  have hlength : taken.length ≤ s.pieces.flatten.length := by
    rw [show s.pieces.flatten = taken ++ rest from h, List.length_append]
    omega
  obtain ⟨pieces, hsplit, hrest⟩ := splitPieces_eq_some hlength
  rw [show s.pieces.flatten = taken ++ rest from h] at hsplit hrest
  rw [List.take_left] at hsplit
  rw [List.drop_left] at hrest
  refine ⟨{ s with pieces := pieces }, ?_, hrest, rfl⟩
  rw [readExact, hsplit]

theorem readExact_eq_ok {n : Nat} {s s' : Incoming} {taken : Bytes}
    (h : readExact n s = (.ok taken, s')) : s.bytes = taken ++ s'.bytes ∧ taken.length = n := by
  by_cases hn : n ≤ s.bytes.length
  · have hs : s.bytes = s.bytes.take n ++ s.bytes.drop n := (List.take_append_drop n s.bytes).symm
    have hlength : (s.bytes.take n).length = n := List.length_take_of_le hn
    obtain ⟨t, hread, hbytes, -⟩ := readExact_append hs
    rw [hlength, h] at hread
    obtain ⟨hok, rfl⟩ := Prod.mk.inj hread
    obtain rfl := Except.ok.inj hok
    rw [hbytes]
    exact ⟨hs, hlength⟩
  · rw [readExact, splitPieces_eq_none (Nat.lt_of_not_le hn)] at h
    cases (Prod.mk.inj h).1

theorem writeAll_open {s : Outgoing} (h : s.Open) (bytes : Bytes) :
    writeAll bytes s = (.ok (), { s with written := s.written ++ bytes }) := by
  rw [writeAll, h.1]

theorem flush_open {s : Outgoing} (h : s.Open) : flush s = (.ok (), s) := by
  rw [flush, h.2]

theorem Outgoing.Open.append {s : Outgoing} (h : s.Open) (bytes : Bytes) :
    Outgoing.Open { s with written := s.written ++ bytes } := h

/-! ## Frames -/

/-- How messages become bytes: what is written is read back, and nothing is read from no bytes. -/
structure Codec (μ : Type) where
  toVec : μ → Except Failure Bytes
  fromSlice : Bytes → Except Failure μ
  roundTrip : ∀ {m body}, toVec m = .ok body → fromSlice body = .ok m
  nothing : ∀ m, fromSlice [] ≠ .ok m

def frame (body : Bytes) : Bytes := toBE 4 body.length ++ body

variable {μ : Type}

/-- What a writer and a reader of frames of at most `limit` bytes owe each other. -/
structure FramingLaw (C : Codec μ) (limit : Nat) (write : μ → Action Outgoing Unit)
    (read : Action Incoming μ) : Prop where
  /-- What is written is read, whatever pieces it arrives in, and no byte is left. -/
  roundTrip : ∀ messages : List μ,
    (∀ m ∈ messages, ∃ body, C.toVec m = .ok body ∧ body.length ≤ limit) →
    ∀ out : Outgoing, out.Open → ∃ out' bytes,
      Action.each write messages out = (.ok (), out') ∧ out'.written = out.written ++ bytes ∧
      ∀ s : Incoming, s.bytes = bytes →
        ∃ s', Action.times read messages.length s = (.ok messages, s') ∧ s'.bytes = []
  /-- A body over the limit is refused before anything is written, on any sink. -/
  tooLarge : ∀ (m : μ) (body : Bytes) (out : Outgoing), C.toVec m = .ok body →
    limit < body.length → ∃ e, write m out = (.error e, out)
  /-- What is read was a frame. -/
  accepted : ∀ (s s' : Incoming) (m : μ), read s = (.ok m, s') →
    ∃ body, s.bytes = frame body ++ s'.bytes ∧ 1 ≤ body.length ∧ body.length ≤ limit ∧
      C.fromSlice body = .ok m
  /-- Part of a frame is not read. -/
  cut : ∀ (body : Bytes) (s : Incoming), body.length ≤ limit → s.bytes <+: frame body →
    s.bytes ≠ frame body → ∀ m s', read s ≠ (.ok m, s')

@[simp]
theorem length_frame (body : Bytes) : (frame body).length = 4 + body.length := by
  rw [frame, List.length_append, length_toBE]

theorem eq_frame_of_isPrefix {body body' rest : Bytes} (hlength : body.length < 256 ^ 4)
    (hlength' : body'.length < 256 ^ 4) (h : frame body' ++ rest <+: frame body) :
    frame body' ++ rest = frame body := by
  have hhead : frame body' <+: frame body := (List.prefix_append _ rest).trans h
  have htake : toBE 4 body'.length = toBE 4 body.length := by
    have hle : (toBE 4 body'.length).length ≤ (toBE 4 body.length).length := by
      rw [length_toBE, length_toBE]
    have hpre : toBE 4 body'.length <+: frame body := (List.prefix_append _ body').trans hhead
    have hsub := List.prefix_of_prefix_length_le hpre (List.prefix_append _ body) hle
    exact hsub.eq_of_length (by rw [length_toBE, length_toBE])
  have heq : body'.length = body.length := by
    rw [← ofBE_toBE_of_lt hlength', htake, ofBE_toBE_of_lt hlength]
  apply h.eq_of_length_le
  rw [List.length_append, length_frame, length_frame]
  omega

theorem FramingLaw.of_one {C : Codec μ} {limit : Nat} {write : μ → Action Outgoing Unit}
    {read : Action Incoming μ} (hlimit : limit < 256 ^ 4)
    (hwrite : ∀ {m body out}, C.toVec m = .ok body → body.length ≤ limit → out.Open →
      write m out = (.ok (), { out with written := out.written ++ frame body }))
    (hlarge : ∀ {m body out}, C.toVec m = .ok body → limit < body.length →
      ∃ e, write m out = (.error e, out))
    (hread : ∀ {s body rest m}, s.bytes = frame body ++ rest → 1 ≤ body.length →
      body.length ≤ limit → C.fromSlice body = .ok m →
      ∃ s', read s = (.ok m, s') ∧ s'.bytes = rest)
    (haccepted : ∀ {s s' m}, read s = (.ok m, s') →
      ∃ body, s.bytes = frame body ++ s'.bytes ∧ 1 ≤ body.length ∧ body.length ≤ limit ∧
        C.fromSlice body = .ok m) :
    FramingLaw C limit write read where
  tooLarge _ _ _ := hlarge
  accepted _ _ _ := haccepted
  cut := by
    intro body s hbody hpre hne m s' hread'
    obtain ⟨body', hs, -, hbody', -⟩ := haccepted hread'
    rw [hs] at hpre hne
    exact hne (eq_frame_of_isPrefix (by omega) (by omega) hpre)
  roundTrip := by
    intro messages
    induction messages with
    | nil =>
      intro _ out _
      refine ⟨out, [], rfl, (List.append_nil _).symm, ?_⟩
      intro s hs
      exact ⟨s, rfl, hs⟩
    | cons m messages ih =>
      intro hbodies out hout
      obtain ⟨body, hbody, hlength⟩ := hbodies m List.mem_cons_self
      have hpos : 1 ≤ body.length := by
        rcases Nat.eq_zero_or_pos body.length with hzero | hpos
        · rw [List.length_eq_zero_iff.mp hzero] at hbody
          exact absurd (C.roundTrip hbody) (C.nothing m)
        · exact hpos
      obtain ⟨out', bytes, hrun, hwritten, hback⟩ :=
        ih (fun m' hm' => hbodies m' (List.mem_cons_of_mem _ hm')) _ (hout.append (frame body))
      refine ⟨out', frame body ++ bytes, ?_, ?_, ?_⟩
      · rw [Action.each, Action.bind_of_ok (hwrite hbody hlength hout)]
        exact hrun
      · rw [hwritten, List.append_assoc]
      · intro s hs
        obtain ⟨t, hfirst, ht⟩ := hread hs hpos hlength (C.roundTrip hbody)
        obtain ⟨s', hrest, hs'⟩ := hback t ht
        refine ⟨s', ?_, hs'⟩
        rw [List.length_cons, Action.times, Action.bind_of_ok hfirst, Action.bind_of_ok hrest]
        rfl

end Lib
