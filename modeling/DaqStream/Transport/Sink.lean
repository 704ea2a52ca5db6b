import DaqStream.Pipeline.Error
import DaqStream.Record.Decode

/-!
# Sinks of blocks

A sink takes blocks of bytes. `RecordSink` says what a sink of any kind can do; `ω` is
whatever the parts of a pipeline share and may change. One sink here keeps the blocks in
memory; the other writes them to a stream that may accept a part of what it is given, ask to
try again, or fail.
-/

namespace DaqStream

/-- What a sink with states `κ` can do. -/
class RecordSink (ω κ : Type) where
  /-- Write one block. -/
  put : κ → Bytes → ω → Except PipelineError Unit × κ × ω
  /-- Write several parts that together are one block. -/
  putParts : κ → List Bytes → ω → Except PipelineError Unit × κ × ω
  /-- Pass on what has not been passed on yet. -/
  flush : κ → ω → Except PipelineError Unit × κ × ω

/-- Blocks kept in memory. -/
structure MemorySink where
  blocks : Array Bytes := #[]

namespace MemorySink

/-- Keep one more block. -/
def put (s : MemorySink) (block : Bytes) : MemorySink := { blocks := s.blocks.push block }

/-- All blocks, one after the other. -/
def concatenated (s : MemorySink) : Bytes := s.blocks.toList.flatten

/-- The record at the front of every block. -/
def records (s : MemorySink) (version : FormatVersion) : Except RecordError (List Record) :=
  s.blocks.toList.mapM (Record.decode version)

instance (ω : Type) : RecordSink ω MemorySink where
  put s block w := (.ok (), s.put block, w)
  putParts s parts w := (.ok (), s.put parts.flatten, w)
  flush s w := (.ok (), s, w)

end MemorySink

/-- What a writer does with the bytes that it is given. -/
inductive Acceptance where
  /-- Accept at most this many of them. -/
  | upTo (count : Nat)
  | failure (error : IoError)
  deriving DecidableEq, Repr

/-- Blocks written to a stream of bytes. -/
structure StreamSink where
  /-- What the writer is going to do; after that it accepts everything. -/
  acceptances : List Acceptance := []
  /-- What is going to happen when the writer is asked to pass on its bytes: nothing wrong,
      or a failure; after that nothing wrong. -/
  flushes : List (Option IoError) := []
  /-- What the writer accepted, write by write. -/
  accepted : Array Bytes := #[]

namespace StreamSink

/-- All bytes that the writer accepted. -/
def received (s : StreamSink) : Bytes := s.accepted.toList.flatten

/-- Offer `bytes` to the writer until it has accepted all of them or failed. Gives the
    accepted pieces and what the writer is going to do after that. -/
def offer (bytes : Bytes) : List Acceptance → Except IoError Unit × List Bytes × List Acceptance
  | [] => if bytes.isEmpty then (.ok (), [], []) else (.ok (), [bytes], [])
  | next :: later =>
    if bytes.isEmpty then (.ok (), [], next :: later)
    else match next with
      | .failure error => if error.isTransient then offer bytes later else (.error error, [], later)
      | .upTo count =>
        if count = 0 then (.error .writeZero, [[]], later)
        else
          let (result, pieces, later') := offer (bytes.drop count) later
          (result, bytes.take count :: pieces, later')

/-- Write one part of a block. -/
def write (s : StreamSink) (bytes : Bytes) : Except IoError Unit × StreamSink :=
  let (result, pieces, acceptances) := offer bytes s.acceptances
  (result, { s with acceptances, accepted := s.accepted ++ pieces.toArray })

/-- Write the parts of a block in order, up to the first failure. -/
def writeParts (s : StreamSink) : List Bytes → Except IoError Unit × StreamSink
  | [] => (.ok (), s)
  | part :: parts =>
    match s.write part with
    | (.ok (), s') => writeParts s' parts
    | (.error e, s') => (.error e, s')

/-- Ask the writer to pass on its bytes, again after every transient failure. -/
def settle : List (Option IoError) → Except IoError Unit × List (Option IoError)
  | [] => (.ok (), [])
  | none :: later => (.ok (), later)
  | some error :: later => if error.isTransient then settle later else (.error error, later)

/-- Pass on what the writer has accepted. -/
def flush (s : StreamSink) : Except IoError Unit × StreamSink :=
  let (result, flushes) := settle s.flushes
  (result, { s with flushes })

instance (ω : Type) : RecordSink ω StreamSink where
  put s block w := ((s.write block).1.mapError .transport, (s.write block).2, w)
  putParts s parts w := ((s.writeParts parts).1.mapError .transport, (s.writeParts parts).2, w)
  flush s w := (s.flush.1.mapError .transport, s.flush.2, w)

end StreamSink

end DaqStream
