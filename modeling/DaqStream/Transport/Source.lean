import DaqStream.Record.Decode
import DaqStream.Pipeline.Error

/-!
# Sources of records

A source hands out one record at a time. `RecordSource` says what a source of any kind can
do; `ω` is whatever the parts of a pipeline share and may change. The two sources here share
nothing: one serves records from memory, the other reads them from a stream of bytes that
comes in arbitrary pieces and with failures in between.
-/

namespace DaqStream

/-- What a source with states `σ` can do. -/
class RecordSource (ω σ : Type) where
  /-- The next record, nothing at the end, or why there is none. -/
  readOne : σ → ω → Except PipelineError (Option Record) × σ × ω

/-- A source that cannot hand out records for ever: every record that it hands out
    lowers `supply`. -/
class FiniteSource (ω σ : Type) extends RecordSource ω σ where
  supply : σ → Nat
  supply_lt : ∀ {s s' : σ} {w w' : ω} {r : Record},
    readOne s w = (.ok (some r), s', w') → supply s' < supply s

/-- Records served from memory. -/
structure MemorySource where
  /-- The records that have not been read. -/
  records : List Record
  /-- Whether the end has been seen. -/
  atEnd : Bool := false

namespace MemorySource

/-- The records written in `bytes`. -/
def ofBytes (version : FormatVersion) (bytes : Bytes) : Except RecordError MemorySource :=
  (Record.decodeAll version bytes).map fun records => { records }

/-- The next record. -/
def readOne (s : MemorySource) : Option Record × MemorySource :=
  match s.records with
  | [] => (none, { s with atEnd := true })
  | r :: rs => (some r, { s with records := rs })

instance (ω : Type) : RecordSource ω MemorySource where
  readOne s w := (.ok s.readOne.1, s.readOne.2, w)

instance (ω : Type) : FiniteSource ω MemorySource where
  supply s := s.records.length
  supply_lt := by
    intro s s' w w' r h
    obtain ⟨records, atEnd⟩ := s
    cases records with
    | nil => simp [RecordSource.readOne, readOne] at h
    | cons r' rs =>
      simp only [RecordSource.readOne, readOne, Prod.mk.injEq] at h
      obtain ⟨-, rfl, -⟩ := h
      simp

end MemorySource

/-- What a reader gives when it is asked. -/
inductive Delivery where
  /-- Bytes; those that are not taken at once stay for the next time. No bytes at all mean
      that the reader has nothing more at this moment. -/
  | chunk (bytes : Bytes)
  | failure (error : IoError)
  deriving DecidableEq, Repr

namespace Delivery

/-- Bytes of a delivery. -/
def size : Delivery → Nat
  | chunk bytes => bytes.length
  | failure _ => 0

/-- Take `count` bytes from what a reader is going to give, fewer only at its end. Transient
    failures are passed over; any other ends the attempt, and what had been taken is lost. -/
def take : (count : Nat) → List Delivery → Except IoError Bytes × List Delivery
  | 0, pending => (.ok [], pending)
  | _ + 1, [] => (.ok [], [])
  | count + 1, chunk bytes :: pending =>
    if bytes.isEmpty then (.ok [], pending)
    else if count + 1 < bytes.length then
      (.ok (bytes.take (count + 1)), chunk (bytes.drop (count + 1)) :: pending)
    else
      let (rest, pending') := take (count + 1 - bytes.length) pending
      (rest.map (bytes ++ ·), pending')
  | count + 1, failure error :: pending =>
    if error.isTransient then take (count + 1) pending else (.error error, pending)

/-- Bytes that a reader is still going to give. -/
def total : List Delivery → Nat
  | [] => 0
  | d :: pending => d.size + total pending

theorem total_take (count : Nat) (pending : List Delivery) :
    total (take count pending).2 ≤ total pending ∧
      ∀ bytes, (take count pending).1 = .ok bytes →
        total (take count pending).2 + bytes.length = total pending := by
  induction pending generalizing count with
  | nil => cases count <;> simp [take, total]
  | cons d pending ih =>
    cases count with
    | zero => simp [take]
    | succ count =>
      cases d with
      | failure error =>
        unfold take
        have hcons : total (failure error :: pending) = total pending := by
          simp [total, size]
        split
        · rw [hcons]; exact ih (count + 1)
        · rw [hcons]; simp
      | chunk bytes =>
        unfold take
        have hcons : total (chunk bytes :: pending) = bytes.length + total pending := by
          simp [total, size]
        rw [hcons]
        split
        · rename_i hempty
          simp only [List.isEmpty_iff] at hempty
          subst hempty
          simp
        · split
          · rename_i hlt
            simp only [total, size, List.length_drop, Except.ok.injEq]
            constructor
            · omega
            · rintro _ rfl
              simp only [List.length_take]
              omega
          · obtain ⟨hle, heq⟩ := ih (count + 1 - bytes.length)
            dsimp only
            constructor
            · omega
            · intro all hall
              cases htake : (take (count + 1 - bytes.length) pending).1 with
              | error e => rw [htake] at hall; simp [Except.map] at hall
              | ok rest =>
                rw [htake] at hall
                simp only [Except.map, Except.ok.injEq] at hall
                subst hall
                have := heq rest htake
                simp only [List.length_append]
                omega

end Delivery

/-- Largest record that a stream source holds unless told otherwise: 64 MiB. -/
def defaultMaxRecordSize : Nat := 64 * 1024 * 1024

/-- Records read from a stream of bytes. -/
structure StreamSource where
  /-- What the reader is still going to give. -/
  pending : List Delivery
  version : FormatVersion
  maxRecordSize : Nat := defaultMaxRecordSize
  /-- Whether the end has been seen; the reader is not asked again after that. -/
  atEnd : Bool := false

namespace StreamSource

/-- Read what follows the size word of a record that declares `declared` bytes. -/
def readRest (s : StreamSource) (word : Bytes) (declared : Nat) :
    Except PipelineError (Option Record) × StreamSource :=
  match Delivery.take (declared - 4) s.pending with
  | (.error e, pending) => (.error (.transport e), { s with pending })
  | (.ok body, pending) =>
    if body.length < declared - 4 then
      (.error (.malformedRecord (.truncated declared (body.length + 4))),
        { s with pending, atEnd := true })
    else match Record.decode s.version (word ++ body) with
      | .ok r => (.ok (some r), { s with pending })
      | .error e => (.error (.malformedRecord e), { s with pending })

/-- The next record. A stream may only end between records. -/
def readOne (s : StreamSource) : Except PipelineError (Option Record) × StreamSource :=
  if s.atEnd then (.ok none, s)
  else match Delivery.take 4 s.pending with
    | (.error e, pending) => (.error (.transport e), { s with pending })
    | (.ok word, pending) =>
      if word.isEmpty then (.ok none, { s with pending, atEnd := true })
      else if word.length < 4 then
        (.error (.malformedRecord (.truncated recordHeaderSize word.length)),
          { s with pending, atEnd := true })
      else
        let declared := LittleEndian.toNat word
        if declared < recordHeaderSize then
          (.error (.malformedRecord (.tooSmall (UInt32.ofNat declared))), { s with pending })
        else if s.maxRecordSize < declared then
          (.error (.malformedRecord (.tooLarge declared s.maxRecordSize)), { s with pending })
        else readRest { s with pending } word declared

instance (ω : Type) : RecordSource ω StreamSource where
  readOne s w := (s.readOne.1, s.readOne.2, w)

theorem total_readRest_le (s : StreamSource) (word : Bytes) (declared : Nat) :
    Delivery.total (s.readRest word declared).2.pending ≤ Delivery.total s.pending := by
  have h := (Delivery.total_take (declared - 4) s.pending).1
  unfold readRest
  split
  · rename_i heq; rw [heq] at h; exact h
  · rename_i heq; rw [heq] at h
    split
    · exact h
    · split <;> exact h

theorem total_readOne_lt {s s' : StreamSource} {r : Record}
    (h : s.readOne = (.ok (some r), s')) :
    Delivery.total s'.pending < Delivery.total s.pending := by
  unfold readOne at h
  split at h
  · simp at h
  · split at h
    · simp at h
    · rename_i word pending htake
      have hword := (Delivery.total_take 4 s.pending).2 word (by rw [htake])
      rw [htake] at hword
      split at h
      · simp at h
      · split at h
        · simp at h
        · dsimp only at h
          split at h
          · simp at h
          · split at h
            · simp at h
            · have hrest := total_readRest_le { s with pending } word (LittleEndian.toNat word)
              rw [h] at hrest
              dsimp only at hrest hword
              omega

instance (ω : Type) : FiniteSource ω StreamSource where
  supply s := Delivery.total s.pending
  supply_lt := by
    intro s s' w w' r h
    simp only [RecordSource.readOne, Prod.mk.injEq] at h
    exact total_readOne_lt (Prod.ext h.1 h.2.1)

end StreamSource

end DaqStream
