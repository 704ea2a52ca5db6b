import DaqStream.Transport.Sink

/-!
# Writing a stream in pieces

A writer may accept the bytes of a block a few at a time, ask to try again, or fail. `Transfer` says
what comes of a block, in one piece or in parts: the writer has got a first part of it, in order and
without gaps; it has got all of it exactly if nothing is reported; and what is reported is the first
failure that is not transient, after which the writer was not asked again. A writer that is willing,
which always accepts something in the end, gets all of every block (`write_of_willing`).
-/

namespace DaqStream

/-- A writer accepts at least one of the bytes that it is given, or asks to try again. -/
def Acceptance.IsWilling : Acceptance → Prop
  | upTo count => 0 < count
  | failure error => error.isTransient = true

namespace Acceptance

/-- The failure for which a writer is given up: it reports one that is not transient, or accepts
    nothing. -/
def fatal? : Acceptance → Option IoError
  | upTo count => if count = 0 then some .writeZero else none
  | failure error => if error.isTransient then none else some error

/-- Whether bytes were accepted, even if none. -/
def isUpTo : Acceptance → Bool
  | upTo _ => true
  | failure _ => false

theorem isWilling_iff {a : Acceptance} : a.IsWilling ↔ a.fatal? = none := by
  cases a with
  | upTo count => simp [IsWilling, fatal?, Nat.pos_iff_ne_zero]
  | failure error => simp [IsWilling, fatal?]

end Acceptance

namespace StreamSink

/-- The writer of a sink is willing for as long as it has a script. After that it accepts
    everything. -/
def Willing (s : StreamSink) : Prop := ∀ a ∈ s.acceptances, a.IsWilling

/-- What is reported of a block of which the writer accepted these pieces, when it was asked with
    these outcomes. -/
def Reports (block : Bytes) (used : List Acceptance) (pieces : List Bytes) :
    Except IoError Unit → Prop
  | .ok () => pieces.flatten = block ∧ ∀ a ∈ used, a.IsWilling
  | .error e => pieces.flatten ≠ block ∧
      ∃ front last, used = front ++ [last] ∧ (∀ a ∈ front, a.IsWilling) ∧ last.fatal? = some e

/-- `s'` is the sink `s` after a block was written to it with `result`. -/
structure Transfer (s : StreamSink) (block : Bytes) (result : Except IoError Unit)
    (s' : StreamSink) (used : List Acceptance) (pieces : List Bytes) : Prop where
  acceptances : s.acceptances = used ++ s'.acceptances
  flushes : s'.flushes = s.flushes
  accepted : s'.accepted = s.accepted ++ pieces.toArray
  /-- Each piece was accepted with one of the outcomes, unless the script is at its end; there the
      writer accepts everything. So an error is the last that is heard of the writer. -/
  scripted : pieces.length = used.countP Acceptance.isUpTo ∨
    s'.acceptances = [] ∧ result = .ok ()
  /-- The writer got the beginning of the block. -/
  taken : pieces.flatten <+: block
  reports : Reports block used pieces result

variable {s s₁ s₂ : StreamSink} {bytes part : Bytes} {used used₁ used₂ later : List Acceptance}
  {pieces pieces₁ pieces₂ : List Bytes} {result : Except IoError Unit}

/-- After a part that was written as a whole comes the rest of the block. -/
theorem Reports.append (h₁ : Reports part used₁ pieces₁ (.ok ()))
    (h₂ : Reports bytes used₂ pieces₂ result) :
    Reports (part ++ bytes) (used₁ ++ used₂) (pieces₁ ++ pieces₂) result := by
  obtain ⟨hpart, hwilling⟩ := h₁
  cases result with
  | ok _ =>
    refine ⟨?_, List.forall_mem_append.2 ⟨hwilling, h₂.2⟩⟩
    rw [List.flatten_append, hpart, h₂.1]
  | error e =>
    obtain ⟨hrest, front, last, rfl, hfront, hlast⟩ := h₂
    refine ⟨?_, used₁ ++ front, last, ?_, List.forall_mem_append.2 ⟨hwilling, hfront⟩, hlast⟩
    · rw [List.flatten_append, hpart]
      intro hall
      exact hrest (List.append_cancel_left hall)
    · rw [List.append_assoc]

theorem Transfer.append (h₁ : Transfer s part (.ok ()) s₁ used₁ pieces₁)
    (h₂ : Transfer s₁ bytes result s₂ used₂ pieces₂) :
    Transfer s (part ++ bytes) result s₂ (used₁ ++ used₂) (pieces₁ ++ pieces₂) := by
  refine ⟨?_, h₂.flushes.trans h₁.flushes, ?_, ?_, ?_, h₁.reports.append h₂.reports⟩
  · rw [h₁.acceptances, h₂.acceptances, List.append_assoc]
  · rw [h₂.accepted, h₁.accepted]
    simp
  · by_cases hend : s₁.acceptances = []
    · -- A writer without a script does not fail.
      have hnone := h₂.acceptances
      rw [hend] at hnone
      obtain ⟨hused, hscript⟩ := List.append_eq_nil_iff.1 hnone.symm
      have hreports := h₂.reports
      cases result with
      | ok _ => exact .inr ⟨hscript, rfl⟩
      | error e =>
        obtain ⟨-, front, last, hlast, -⟩ := hreports
        rw [hused] at hlast
        simp at hlast
    · rcases h₁.scripted with hfirst | hfirst
      · rcases h₂.scripted with hsecond | hsecond
        · refine .inl ?_
          rw [List.length_append, List.countP_append, hfirst, hsecond]
        · exact .inr hsecond
      · exact absurd hfirst.1 hend
  · rw [List.flatten_append, h₁.reports.1]
    exact (List.prefix_append_right_inj part).2 h₂.taken

/-- A part that was not written as a whole is the last that is tried. -/
theorem Transfer.stopped {e : IoError} (h : Transfer s part (.error e) s₁ used pieces)
    (rest : Bytes) : Transfer s (part ++ rest) (.error e) s₁ used pieces := by
  obtain ⟨hrest, hends⟩ := h.reports
  refine ⟨h.acceptances, h.flushes, h.accepted, h.scripted,
    h.taken.trans (List.prefix_append part rest), ?_, hends⟩
  intro hall
  have hle : (part ++ rest).length ≤ part.length := hall ▸ h.taken.length_le
  have hsame : part = part ++ rest := (List.prefix_append part rest).eq_of_length_le hle
  exact hrest (hall.trans hsame.symm)

section Steps

/-! There is one lemma for each outcome that a writer may have for bytes that are still to be
written, and one for a writer without a script. -/

theorem write_nil (s : StreamSink) : s.write [] = (.ok (), s) := by
  obtain ⟨script, flushes, accepted⟩ := s
  cases script <;> simp [write, offer]

theorem Transfer.nil (s : StreamSink) : Transfer s [] (.ok ()) s [] [] :=
  ⟨rfl, rfl, by simp, .inl rfl, List.prefix_refl _, rfl, by simp⟩

theorem write_unscripted (hscript : s.acceptances = []) (hbytes : bytes ≠ []) :
    s.write bytes = (.ok (), { s with accepted := s.accepted.push bytes }) := by
  simp [write, hscript, offer, hbytes]

theorem Transfer.unscripted (hscript : s.acceptances = []) (bytes : Bytes) :
    Transfer s bytes (.ok ()) { s with accepted := s.accepted.push bytes } [] [bytes] :=
  ⟨rfl, rfl, by simp, .inr ⟨hscript, rfl⟩, by simp, by simp, by simp⟩

theorem write_retry {error : IoError} (hscript : s.acceptances = .failure error :: later)
    (htransient : error.isTransient = true) (hbytes : bytes ≠ []) :
    s.write bytes = write { s with acceptances := later } bytes := by
  simp [write, hscript, offer, hbytes, htransient]

theorem Transfer.retry {error : IoError} (hscript : s.acceptances = .failure error :: later)
    (htransient : error.isTransient = true) :
    Transfer s [] (.ok ()) { s with acceptances := later } [.failure error] [] :=
  ⟨hscript, rfl, by simp, .inl rfl, List.prefix_refl _, rfl, List.forall_mem_singleton.2 htransient⟩

theorem write_advance {count : Nat} (hscript : s.acceptances = .upTo count :: later)
    (hcount : count ≠ 0) (hbytes : bytes ≠ []) :
    s.write bytes =
      write { s with acceptances := later, accepted := s.accepted.push (bytes.take count) }
        (bytes.drop count) := by
  simp [write, hscript, offer, hbytes, hcount]

theorem Transfer.advance {count : Nat} (hscript : s.acceptances = .upTo count :: later)
    (hcount : count ≠ 0) (piece : Bytes) :
    Transfer s piece (.ok ())
      { s with acceptances := later, accepted := s.accepted.push piece } [.upTo count] [piece] :=
  ⟨hscript, rfl, by simp, .inl rfl, by simp, by simp,
    List.forall_mem_singleton.2 (Nat.pos_of_ne_zero hcount)⟩

theorem write_refused (hscript : s.acceptances = .upTo 0 :: later) (hbytes : bytes ≠ []) :
    s.write bytes =
      (.error .writeZero, { s with acceptances := later, accepted := s.accepted.push [] }) := by
  simp [write, hscript, offer, hbytes]

theorem Transfer.refused (hscript : s.acceptances = .upTo 0 :: later) (hbytes : bytes ≠ []) :
    Transfer s bytes (.error .writeZero)
      { s with acceptances := later, accepted := s.accepted.push [] } [.upTo 0] [[]] :=
  ⟨hscript, rfl, by simp, .inl rfl, List.nil_prefix, hbytes.symm, [], .upTo 0, rfl, by simp, rfl⟩

theorem write_broken {error : IoError} (hscript : s.acceptances = .failure error :: later)
    (hfatal : ¬ error.isTransient = true) (hbytes : bytes ≠ []) :
    s.write bytes = (.error error, { s with acceptances := later }) := by
  simp [write, hscript, offer, hbytes, hfatal]

theorem Transfer.broken {error : IoError} (hscript : s.acceptances = .failure error :: later)
    (hfatal : ¬ error.isTransient = true) (hbytes : bytes ≠ []) :
    Transfer s bytes (.error error) { s with acceptances := later } [.failure error] [] :=
  ⟨hscript, rfl, by simp, .inl rfl, List.nil_prefix, hbytes.symm, [], .failure error, rfl, by simp,
    by simp [Acceptance.fatal?, hfatal]⟩

end Steps

/-- A block in one piece. -/
theorem transfer_write (s : StreamSink) (bytes : Bytes) :
    ∃ used pieces, Transfer s bytes (s.write bytes).1 (s.write bytes).2 used pieces := by
  -- Every outcome leaves a shorter script, with which the rest of the bytes is written.
  induction hscript : s.acceptances generalizing s bytes with
  | nil =>
    by_cases hempty : bytes = []
    · rw [hempty, write_nil]
      exact ⟨_, _, .nil s⟩
    · rw [write_unscripted hscript hempty]
      exact ⟨_, _, .unscripted hscript bytes⟩
  | cons next later ih =>
    by_cases hempty : bytes = []
    · rw [hempty, write_nil]
      exact ⟨_, _, .nil s⟩
    cases next with
    | failure error =>
      by_cases htransient : error.isTransient = true
      · rw [write_retry hscript htransient hempty]
        obtain ⟨used, pieces, hrest⟩ := ih { s with acceptances := later } bytes rfl
        exact ⟨_, _, (Transfer.retry hscript htransient).append hrest⟩
      · rw [write_broken hscript htransient hempty]
        exact ⟨_, _, .broken hscript htransient hempty⟩
    | upTo count =>
      by_cases hcount : count = 0
      · subst hcount
        rw [write_refused hscript hempty]
        exact ⟨_, _, .refused hscript hempty⟩
      · rw [write_advance hscript hcount hempty]
        obtain ⟨used, pieces, hrest⟩ :=
          ih { s with acceptances := later, accepted := s.accepted.push (bytes.take count) }
            (bytes.drop count) rfl
        have hall := (Transfer.advance hscript hcount (bytes.take count)).append hrest
        rw [List.take_append_drop] at hall
        exact ⟨_, _, hall⟩

/-- A block in parts. -/
theorem transfer_writeParts (s : StreamSink) (parts : List Bytes) :
    ∃ used pieces,
      Transfer s parts.flatten (s.writeParts parts).1 (s.writeParts parts).2 used pieces := by
  induction parts generalizing s with
  | nil => exact ⟨_, _, .nil s⟩
  | cons part parts ih =>
    obtain ⟨used, pieces, hpart⟩ := transfer_write s part
    rw [writeParts]
    rcases hwrite : s.write part with ⟨e | _, s₁⟩
    all_goals rw [hwrite] at hpart
    · exact ⟨_, _, hpart.stopped parts.flatten⟩
    · obtain ⟨used', pieces', hrest⟩ := ih s₁
      exact ⟨_, _, hpart.append hrest⟩

theorem Transfer.received (h : Transfer s bytes result s₁ used pieces) :
    s₁.received = s.received ++ pieces.flatten := by
  simp [StreamSink.received, h.accepted]

/-- A writer that is willing gets all of a block, and stays willing. -/
theorem Transfer.of_willing (h : Transfer s bytes result s₁ used pieces) (hs : s.Willing) :
    result = .ok () ∧ s₁.received = s.received ++ bytes ∧ s₁.Willing := by
  have hscript : ∀ a ∈ used ++ s₁.acceptances, a.IsWilling := h.acceptances ▸ hs
  have hreports := h.reports
  cases result with
  | ok _ =>
    refine ⟨rfl, ?_, fun a ha => hscript a (List.mem_append_right used ha)⟩
    rw [h.received, hreports.1]
  | error e =>
    obtain ⟨-, front, last, hused, -, hfatal⟩ := hreports
    have hlast : last.IsWilling := by
      apply hscript
      rw [hused]
      simp
    rw [Acceptance.isWilling_iff.1 hlast] at hfatal
    cases hfatal

/-- A willing writer gets all of a block, after what it had got before. -/
theorem write_of_willing (h : s.Willing) (bytes : Bytes) :
    ∃ s', s.write bytes = (.ok (), s') ∧ s'.received = s.received ++ bytes ∧
      s'.flushes = s.flushes ∧ s'.Willing := by
  obtain ⟨used, pieces, htransfer⟩ := s.transfer_write bytes
  obtain ⟨hresult, hreceived, hwilling⟩ := htransfer.of_willing h
  exact ⟨_, Prod.ext hresult rfl, hreceived, htransfer.flushes, hwilling⟩

end StreamSink

end DaqStream
