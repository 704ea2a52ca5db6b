import DaqStream.Proofs.Transport.Acceptance

/-!
# Blocks on a stream

A sink may be asked to write a block in one piece or in parts. A stream whose writer does not fail
cannot be told from a memory in which the blocks are kept, and it makes no difference to it how a
block is cut into parts (`transfers_blocks`).
-/

namespace DaqStream

/-- A block that is to be written, in one piece or in parts. -/
inductive BlockRequest where
  | whole (block : Bytes)
  | inParts (parts : List Bytes)

namespace BlockRequest

/-- The bytes of the block. -/
def block : BlockRequest → Bytes
  | whole block => block
  | inParts parts => parts.flatten

section Perform

variable {ω κ : Type} [RecordSink ω κ]

/-- Have a sink write the block. -/
def perform : BlockRequest → κ → ω → Except PipelineError Unit × κ × ω
  | whole block, k, w => RecordSink.put k block w
  | inParts parts, k, w => RecordSink.putParts k parts w

/-- A sink that was given several blocks, whatever came of each. -/
def performAll : List BlockRequest → κ → ω → κ × ω
  | [], k, w => (k, w)
  | request :: requests, k, w =>
    match request.perform k w with
    | (_, k', w') => performAll requests k' w'

end Perform

variable {ω : Type}

theorem transfer_perform (request : BlockRequest) (s : StreamSink) (w : ω) :
    ∃ used pieces result s', request.perform s w = (result.mapError .transport, s', w) ∧
      s.Transfer request.block result s' used pieces := by
  cases request with
  | whole block =>
    obtain ⟨used, pieces, h⟩ := s.transfer_write block
    exact ⟨used, pieces, _, _, rfl, h⟩
  | inParts parts =>
    obtain ⟨used, pieces, h⟩ := s.transfer_writeParts parts
    exact ⟨used, pieces, _, _, rfl, h⟩

theorem perform_of_willing (request : BlockRequest) {s : StreamSink} (h : s.Willing) (w : ω) :
    ∃ s', request.perform s w = (.ok (), s', w) ∧ s'.received = s.received ++ request.block ∧
      s'.Willing := by
  obtain ⟨used, pieces, result, s', hperform, htransfer⟩ := request.transfer_perform s w
  obtain ⟨rfl, hreceived, hwilling⟩ := htransfer.of_willing h
  exact ⟨s', hperform, hreceived, hwilling⟩

theorem performAll_of_willing (requests : List BlockRequest) {s : StreamSink} (h : s.Willing)
    (w : ω) :
    (performAll requests s w).1.received = s.received ++ (requests.map block).flatten ∧
      (performAll requests s w).1.Willing := by
  induction requests generalizing s with
  | nil => exact ⟨by simp [performAll], h⟩
  | cons request requests ih =>
    obtain ⟨s', hperform, hreceived, hwilling⟩ := request.perform_of_willing h w
    obtain ⟨hrest, hlast⟩ := ih hwilling
    rw [performAll, hperform]
    refine ⟨?_, hlast⟩
    rw [hrest, hreceived]
    simp

/-- A memory keeps every block as one, however it comes. -/
theorem concatenated_performAll (requests : List BlockRequest) (s : MemorySink) (w : ω) :
    (performAll requests s w).1.concatenated =
      s.concatenated ++ (requests.map block).flatten := by
  induction requests generalizing s with
  | nil => simp [performAll]
  | cons request requests ih =>
    have hperform : request.perform s w = (.ok (), s.put request.block, w) := by
      cases request <;> rfl
    rw [performAll, hperform]
    dsimp only
    rw [ih]
    simp [MemorySink.concatenated, MemorySink.put]

/-- Whatever a writer does, and whatever blocks it was given before, of the next block it gets a
    beginning: all of it if nothing is reported, and otherwise what it accepted before the first
    failure that is not transient, which is reported and after which it is not asked again. A writer
    that is willing gets what a memory keeps of the same blocks, in one piece or in parts. -/
theorem transfers_blocks (script : List Acceptance) (flushes : List (Option IoError)) (w : ω) :
    let sink : StreamSink := { acceptances := script, flushes }
    (∀ (before : List BlockRequest) (request : BlockRequest),
      let now := performAll before sink w
      ∃ used pieces result s',
        request.perform now.1 now.2 = (result.mapError .transport, s', now.2) ∧
        now.1.Transfer request.block result s' used pieces ∧
        s'.received = now.1.received ++ pieces.flatten) ∧
    ((∀ a ∈ script, a.IsWilling) → ∀ requests : List BlockRequest,
      let now := performAll requests sink w
      now.1.received = (performAll requests ({} : MemorySink) w).1.concatenated ∧
      ∀ parts : List Bytes,
        ((inParts parts).perform now.1 now.2).2.1.received =
          ((whole parts.flatten).perform now.1 now.2).2.1.received) := by
  intro sink
  constructor
  · intro before request now
    obtain ⟨used, pieces, result, s', hperform, htransfer⟩ := request.transfer_perform now.1 now.2
    exact ⟨used, pieces, result, s', hperform, htransfer, htransfer.received⟩
  · intro hwilling requests now
    have hsink : sink.Willing := hwilling
    obtain ⟨hall, hlast⟩ := performAll_of_willing requests hsink w
    refine ⟨?_, ?_⟩
    · rw [hall, concatenated_performAll]
      rfl
    · intro parts
      obtain ⟨s₁, hparts, hreceived₁, -⟩ := (inParts parts).perform_of_willing hlast now.2
      obtain ⟨s₂, hwhole, hreceived₂, -⟩ := (whole parts.flatten).perform_of_willing hlast now.2
      rw [hparts, hwhole, hreceived₁, hreceived₂]
      rfl

end BlockRequest

end DaqStream
