import NixPqcCache.Foundation.Pieces
import NixPqcCache.Foundation.Stateful
import NixPqcCache.Proxy

/-!
# Reading a capped body

A response body arrives in chunks, and `read_capped` checks its cap after each
of them.  What it returns depends only on the bytes of the body and on how the
body ends: all of the bytes, or an error.  Whenever it asks for a chunk, it
holds no more than the cap.
-/

namespace NixPqcCache.CappedReader

open NixPqcCache.Data
open NixPqcCache.Foundation
open NixPqcCache.Hybrid
open NixPqcCache.Proxy

/-! ## Bodies -/

/-- The chunks of a body. -/
def chunks : BodyStream → List Bytes
  | .done => []
  | .failed _ => []
  | .chunk bytes rest => bytes :: chunks rest

/-- The error that a body ends with, if it does not end normally. -/
def ending : BodyStream → Option Error
  | .done => none
  | .failed cause => some cause
  | .chunk _ rest => ending rest

/-- What is made of the bytes of a body when it ends. -/
def finish : Option Error → Bytes → Result Bytes
  | none, bytes => .ok bytes
  | some cause, _ => .error cause

theorem finish_eq_ok_iff {ending : Option Error} {read bytes : Bytes} :
    finish ending read = .ok bytes ↔ ending = none ∧ bytes = read := by
  cases ending with
  | none => simp [finish, eq_comm]
  | some cause => simp [finish]

/-! ## What is returned -/

variable {cap : Nat}

/-- The loop keeps chunk after chunk, and then looks at the ending. -/
theorem readLoop_eq_foldlM (cap : Nat) (buf : Bytes) (body : BodyStream) :
    readLoop cap buf body =
      (chunks body).foldlM (Pieces.keep cap (.bodyTooLong cap)) buf >>=
        finish (ending body) := by
  induction body generalizing buf with
  | done => rfl
  | failed cause => rfl
  | chunk bytes rest induction =>
      rw [readLoop, chunks, List.foldlM_cons, Pieces.keep]
      split
      next => rfl
      next => exact induction (buf ++ bytes)

/-- The bytes of the body are kept as if they had arrived at once. -/
theorem readCapped_eq (cap : Nat) (body : BodyStream) :
    readCapped cap body =
      Pieces.keep cap (.bodyTooLong cap) [] (chunks body).flatten >>=
        finish (ending body) := by
  have divisible := @Pieces.keep_divisible UInt8 Error cap (.bodyTooLong cap)
  have empty : ([] : Bytes).length ≤ cap := Nat.zero_le cap
  rw [readCapped, readLoop_eq_foldlM, divisible.foldlM_eq empty]

/-- The reader returns the whole body, and only if it ends within the cap. -/
theorem readCapped_eq_ok_iff {body : BodyStream} {bytes : Bytes} :
    readCapped cap body = .ok bytes ↔
      ending body = none ∧
        ((chunks body).map List.length).sum ≤ cap ∧
          bytes = (chunks body).flatten := by
  simp only [readCapped_eq, Runs.bind_eq_ok_iff, Pieces.keep_eq_ok_iff,
    finish_eq_ok_iff, List.nil_append, List.length_flatten]
  constructor
  · rintro ⟨kept, ⟨fits, rfl⟩, normal, rfl⟩
    exact ⟨normal, fits, rfl⟩
  · rintro ⟨normal, fits, rfl⟩
    exact ⟨_, ⟨fits, rfl⟩, normal, rfl⟩

/-- Bodies with the same bytes and the same ending are read alike. -/
theorem readCapped_congr {left right : BodyStream}
    (bytes : (chunks left).flatten = (chunks right).flatten)
    (endings : ending left = ending right) :
    readCapped cap left = readCapped cap right := by
  rw [readCapped_eq, readCapped_eq, bytes, endings]

/-! ## The handlers -/

/-- Responses that differ at most in how their bodies are cut. -/
inductive CutAlike : Result UpstreamResponse → Result UpstreamResponse → Prop
  | failed (cause : Error) : CutAlike (.error cause) (.error cause)
  | answered (status : Nat) {left right : BodyStream}
      (bytes : (chunks left).flatten = (chunks right).flatten)
      (endings : ending left = ending right) :
      CutAlike (.ok ⟨status, left⟩) (.ok ⟨status, right⟩)

/-- What reads a body by its bytes and its ending does not see the cuts. -/
theorem CutAlike.bind_eq {α : Type} {left right : Result UpstreamResponse}
    (alike : CutAlike left right) {next : UpstreamResponse → Result α}
    (reads : ∀ status one other,
      (chunks one).flatten = (chunks other).flatten →
        ending one = ending other →
          next ⟨status, one⟩ = next ⟨status, other⟩) :
    left >>= next = right >>= next := by
  cases alike with
  | failed cause => rfl
  | answered status bytes endings => exact reads status _ _ bytes endings

/-- The proxy does not see how the upstream cuts a narinfo. -/
theorem handleNarinfo_congr {Rand : Type} (primitives : Primitives Rand)
    (state : ProxyState) {left right : Upstream}
    (alike : ∀ url, CutAlike (left url) (right url)) (rand : Rand)
    (filename : Str) :
    handleNarinfo primitives state left rand filename =
      handleNarinfo primitives state right rand filename := by
  rw [handleNarinfo, handleNarinfo]
  split
  next => rfl
  next hash suffix =>
    apply (alike _).bind_eq
    intro status one other bytes endings
    simp only [@readCapped_congr _ one other bytes endings]

/-- The proxy does not see how the upstream cuts its description. -/
theorem handleCacheInfo_congr (state : ProxyState) {left right : Upstream}
    (alike : ∀ url, CutAlike (left url) (right url)) :
    handleCacheInfo state left = handleCacheInfo state right := by
  apply (alike _).bind_eq
  intro status one other bytes endings
  simp only [@readCapped_congr _ one other bytes endings]

/-! ## What is held -/

/-- The state of the loop when it asks for a chunk. -/
structure Reader where
  buf : Bytes
  stream : BodyStream

/-- One pass through the loop: it returns, or it comes back to ask again. -/
def poll (cap : Nat) (reader : Reader) : Result Bytes ⊕ Reader :=
  match reader.stream with
  | .done => .inl (.ok reader.buf)
  | .failed cause => .inl (.error cause)
  | .chunk bytes rest =>
      let buf := reader.buf ++ bytes
      if cap < buf.length then
        .inl (.error (.bodyTooLong cap))
      else
        .inr ⟨buf, rest⟩

/-- The loop is its first pass, followed by the loop. -/
theorem readLoop_eq_poll (cap : Nat) (reader : Reader) :
    readLoop cap reader.buf reader.stream =
      match poll cap reader with
      | .inl result => result
      | .inr next => readLoop cap next.buf next.stream := by
  rcases reader with ⟨buf, stream⟩
  cases stream with
  | done => rfl
  | failed cause => rfl
  | chunk bytes rest =>
      simp only [readLoop, poll]
      split
      next => rfl
      next => rfl

/-- While a body is read, the loop asks for a chunk in this state. -/
def Asks (cap : Nat) (body : BodyStream) : Reader → Prop :=
  Relation.ReflTransGen
    (fun before after => poll cap before = .inr after) ⟨[], body⟩

/-- A pass that comes back has appended a chunk within the cap. -/
theorem poll_eq_inr_iff {before after : Reader} :
    poll cap before = .inr after ↔
      ∃ bytes, before.stream = .chunk bytes after.stream ∧
        after.buf = before.buf ++ bytes ∧ after.buf.length ≤ cap := by
  rcases before with ⟨buf, stream⟩
  cases stream with
  | done => simp [poll]
  | failed cause => simp [poll]
  | chunk bytes rest =>
      simp only [poll]
      split
      next exceeds =>
        constructor
        · intro impossible
          cases impossible
        · rintro ⟨same, equal, appended, fits⟩
          cases equal
          rw [appended] at fits
          exact absurd fits (Nat.not_le.mpr exceeds)
      next fits =>
        constructor
        · intro again
          cases again
          exact ⟨bytes, rfl, rfl, Nat.not_lt.mp fits⟩
        · rintro ⟨same, equal, appended, -⟩
          cases equal
          rw [← appended]

/-- What holds of the loop when it asks for a chunk of a body. -/
structure OnTheWay (cap : Nat) (body : BodyStream) (reader : Reader) :
    Prop where
  bounded : reader.buf.length ≤ cap
  /-- What is in the buffer and what is to come are the whole body. -/
  whole : reader.buf ++ (chunks reader.stream).flatten =
    (chunks body).flatten
  returns : readLoop cap reader.buf reader.stream = readCapped cap body

theorem onTheWay_start (cap : Nat) (body : BodyStream) :
    OnTheWay cap body ⟨[], body⟩ where
  bounded := Nat.zero_le cap
  whole := rfl
  returns := rfl

theorem OnTheWay.poll {body : BodyStream} {before after : Reader}
    (onTheWay : OnTheWay cap body before)
    (again : poll cap before = .inr after) : OnTheWay cap body after := by
  rcases poll_eq_inr_iff.mp again with ⟨bytes, piece, appended, fits⟩
  constructor
  case bounded => exact fits
  case whole =>
    rw [← onTheWay.whole, appended, piece, List.append_assoc]
    rfl
  case returns => rw [← onTheWay.returns, readLoop_eq_poll cap before, again]

theorem Asks.onTheWay {body : BodyStream} {reader : Reader}
    (asks : Asks cap body reader) : OnTheWay cap body reader :=
  Stateful.invariant_of_reached
    (fun _ _ onTheWay again => onTheWay.poll again)
    (onTheWay_start cap body) asks

/-! ## Every way of cutting a body -/

/--
The reader returns the bytes of a body exactly when it ends normally within the
cap, and does not see how they were cut.  Its loop is its first pass followed
by the loop, and whenever that asks for a chunk it holds no more than the cap,
and is on the way to what the reader returns.
-/
theorem readCapped_chunking (cap : Nat) :
    (∀ body bytes,
      readCapped cap body = .ok bytes ↔
        ending body = none ∧
          ((chunks body).map List.length).sum ≤ cap ∧
            bytes = (chunks body).flatten) ∧
      (∀ left right, (chunks left).flatten = (chunks right).flatten →
        ending left = ending right →
          readCapped cap left = readCapped cap right) ∧
      (∀ reader : Reader, readLoop cap reader.buf reader.stream =
        match poll cap reader with
        | .inl result => result
        | .inr next => readLoop cap next.buf next.stream) ∧
      ∀ body reader, Asks cap body reader →
        reader.buf.length ≤ cap ∧
          reader.buf ++ (chunks reader.stream).flatten =
            (chunks body).flatten ∧
          readLoop cap reader.buf reader.stream = readCapped cap body := by
  constructor
  · intro body bytes
    exact readCapped_eq_ok_iff
  constructor
  · intro left right bytes endings
    exact readCapped_congr bytes endings
  constructor
  · intro reader
    exact readLoop_eq_poll cap reader
  · intro body reader asks
    have onTheWay := asks.onTheWay
    exact ⟨onTheWay.bounded, onTheWay.whole, onTheWay.returns⟩

/-- Three bytes in three chunks, one of them empty, under a cap of three. -/
theorem readCapped_chunking_sample :
    readCapped 3 (.chunk [1] (.chunk [] (.chunk [2, 3] .done))) =
        .ok [1, 2, 3] ∧
      readCapped 3 (.chunk [1] (.chunk [] (.chunk [2, 3] .done))) =
        readCapped 3 (.chunk [1, 2] (.chunk [3] .done)) ∧
      readLoop 3 [1] (.chunk [2, 3] .done) =
        readCapped 3 (.chunk [1] (.chunk [2, 3] .done)) := by
  rcases readCapped_chunking 3 with ⟨returns, same, -, onTheWay⟩
  constructor
  · exact (returns _ _).mpr ⟨rfl, by decide, rfl⟩
  constructor
  · exact same _ _ rfl rfl
  · exact (onTheWay (.chunk [1] (.chunk [2, 3] .done))
      ⟨[1], .chunk [2, 3] .done⟩ (.single rfl)).2.2

end NixPqcCache.CappedReader
