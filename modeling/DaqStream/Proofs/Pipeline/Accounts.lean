import DaqStream.Proofs.Pipeline.Journal

/-!
# The accounts of a run

What a run reports is checked against its journal: every record that the source handed out is
counted once, as written, dropped, skipped or turned back, and the blocks that were put into
the sink are the encodings of the records that nothing kept from it (`run_accounted`).
-/

namespace DaqStream

namespace Entry

/-- The record that the source handed out. -/
def handedOut? : Entry → Option Record
  | .read (.ok (some r)) => some r
  | _ => none

/-- The record that the filters were handed. -/
def offered? : Entry → Option Record
  | .filtered r _ => some r
  | _ => none

/-- The block that the sink was given. -/
def put? : Entry → Option Bytes
  | .put block _ => some block
  | _ => none

/-- Whether the source was asked for a record. -/
def isRead : Entry → Bool
  | .read _ => true
  | _ => false

/-- Whether the filters dropped a record. -/
def isDrop : Entry → Bool
  | .filtered _ (.ok .drop) => true
  | _ => false

/-- Whether the predicates stopped the run between the source and the sink. -/
def isRefusal : Entry → Bool
  | .asked (.postInput _) .abort => true
  | .asked (.preOutput _) .abort => true
  | _ => false

end Entry

/-- The records that the source handed out. -/
def handedOut (journal : List Entry) : List Record :=
  journal.filterMap Entry.handedOut?

/-- The records that the filters were handed. -/
def offered (journal : List Entry) : List Record :=
  journal.filterMap Entry.offered?

/-- The blocks that were put into the sink. -/
def blocks (journal : List Entry) : List Bytes :=
  journal.filterMap Entry.put?

theorem handedOut_append (entries entries' : List Entry) :
    handedOut (entries ++ entries') = handedOut entries ++ handedOut entries' :=
  List.filterMap_append

theorem offered_append (entries entries' : List Entry) :
    offered (entries ++ entries') = offered entries ++ offered entries' :=
  List.filterMap_append

theorem blocks_append (entries entries' : List Entry) :
    blocks (entries ++ entries') = blocks entries ++ blocks entries' :=
  List.filterMap_append

/-- Whether the run was stopped by a predicate between the source and the sink. -/
def refused (journal : List Entry) : Bool :=
  journal.any Entry.isRefusal

/-- The record that the filters emitted at the head of these entries, unless the predicates
    stopped it in front of the sink or skipped it at either of the two checkpoints there. -/
def passed? : List Entry → Option Record
  | .filtered _ (.ok (.emit r)) :: .asked (.preOutput _) before ::
      .asked (.postOutput _) last :: _ =>
    if before ≠ .abort ∧ before ≠ .skip ∧ last ≠ .skip then some r else none
  | _ => none

/-- The records that the filters emitted and that no predicate kept from the sink. -/
def cleared : List Entry → List Record
  | [] => []
  | entry :: rest => (passed? (entry :: rest)).toList ++ cleared rest

/-- The entries account for what became of the records while the counts went from `t`
    to `t'`. -/
structure Accounts (t t' : Tally) (entries : List Entry) : Prop where
  read : t'.read = t.read + (handedOut entries).length
  written : t'.written = t.written + (blocks entries).length
  dropped : t'.dropped = t.dropped + entries.countP Entry.isDrop
  cleared : blocks entries = (cleared entries).map Record.encode
  inOrder : (offered entries).Sublist (handedOut entries)
  balance : t.skipped + (handedOut entries).length =
    t'.skipped + ((blocks entries).length + entries.countP Entry.isDrop +
      entries.countP Entry.isRefusal)

namespace Page

open Running

variable {t t' : Tally} {complete : Bool} {ending : CycleEnd} {page : List Entry}

/-- Only a record that gets through the last two checkpoints is cleared. -/
theorem cleared_judging {first before last : Verdict} {r r' : Record} (habort : before ≠ .abort)
    (rest : List Entry) :
    cleared (judging first r r' before last ++ rest) =
      if before = .skip ∨ last = .skip then cleared rest else r' :: cleared rest := by
  show (if before ≠ .abort ∧ before ≠ .skip ∧ last ≠ .skip then some r' else none).toList ++
    cleared rest = _
  by_cases hskip : before = .skip ∨ last = .skip
  · have hkept : ¬ (before ≠ .abort ∧ before ≠ .skip ∧ last ≠ .skip) := by
      intro hpasses
      exact hskip.elim hpasses.2.1 hpasses.2.2
    rw [if_pos hskip, if_neg hkept]
    rfl
  · have hpasses : before ≠ .abort ∧ before ≠ .skip ∧ last ≠ .skip :=
      ⟨habort, not_or.1 hskip⟩
    rw [if_neg hskip, if_pos hpasses]
    rfl

theorem countP_isRefusal_judging {first before last : Verdict} {r r' : Record}
    (habort : before ≠ .abort) (rest : List Entry) :
    (judging first r r' before last ++ rest).countP Entry.isRefusal =
      rest.countP Entry.isRefusal := by
  rw [List.countP_append]
  cases before with
  | abort => exact absurd rfl habort
  | proceed => exact Nat.zero_add _
  | skip => exact Nat.zero_add _

/-- A page accounts for its record, unless the run fails there. -/
theorem accounts (h : Page t complete ending t' page) (hgoes : ∀ e, ending ≠ .fail e) :
    Accounts t t' page := by
  cases h with
  | closed => exact ⟨rfl, rfl, rfl, rfl, List.nil_sublist _, rfl⟩
  | unreadable => exact absurd rfl (hgoes _)
  | exhausted => exact ⟨rfl, rfl, rfl, rfl, List.nil_sublist _, rfl⟩
  | refused => exact ⟨rfl, rfl, rfl, rfl, List.nil_sublist _, rfl⟩
  | skipped => exact ⟨rfl, rfl, rfl, rfl, List.nil_sublist _, rfl⟩
  | failed => exact absurd rfl (hgoes _)
  | dropped => exact ⟨rfl, rfl, rfl, rfl, List.Sublist.refl _, rfl⟩
  | flushed => exact absurd rfl (hgoes _)
  | unflushed => exact absurd rfl (hgoes _)
  | withheld => exact ⟨rfl, rfl, rfl, rfl, List.Sublist.refl _, rfl⟩
  | @passedOver first before last r r' habort hskip =>
    have hcleared : DaqStream.cleared (judging first r r' before last) = [] :=
      (cleared_judging habort []).trans (if_pos hskip)
    have hrefusal : (judging first r r' before last).countP Entry.isRefusal = 0 :=
      countP_isRefusal_judging habort []
    refine ⟨rfl, rfl, rfl, ?_, List.Sublist.refl _, ?_⟩
    · rw [hcleared]
      rfl
    · rw [hrefusal]
      rfl
  | @written first before last r r' habort hskip =>
    have hcleared : DaqStream.cleared (judging first r r' before last ++
        [.put r'.encode (.ok ())]) = [r'] :=
      (cleared_judging habort _).trans (if_neg hskip)
    refine ⟨rfl, rfl, rfl, ?_, List.Sublist.refl _, ?_⟩
    · rw [hcleared]
      rfl
    · rw [countP_isRefusal_judging habort]
      rfl
  | unwritten habort hskip => exact absurd rfl (hgoes _)

/-- Only the page at which the run is stopped has a refusal. -/
theorem refusals (h : Page t complete ending t' page) :
    page.countP Entry.isRefusal = 0 ∨
      ending = .stop .aborted ∧ page.countP Entry.isRefusal = 1 := by
  cases h with
  | closed => exact .inl rfl
  | unreadable => exact .inl rfl
  | exhausted => exact .inl rfl
  | refused => exact .inr ⟨rfl, rfl⟩
  | skipped => exact .inl rfl
  | failed => exact .inl rfl
  | dropped => exact .inl rfl
  | flushed => exact .inl rfl
  | unflushed => exact .inl rfl
  | withheld => exact .inr ⟨rfl, rfl⟩
  | passedOver habort => exact .inl (countP_isRefusal_judging habort [])
  | written habort => exact .inl (countP_isRefusal_judging habort _)
  | unwritten habort => exact .inl (countP_isRefusal_judging habort _)

theorem read (h : Page t complete ending t' page) :
    t'.read = t.read + (handedOut page).length := by
  cases h <;> rfl

theorem reads_le (h : Page t complete ending t' page) : page.countP Entry.isRead ≤ 1 := by
  cases h <;> first | exact Nat.le_refl 1 | exact Nat.zero_le 1

/-- A cycle that the run goes on after has read once, and was handed out a record. -/
theorem reads_of_next (h : Page t complete ending t' page) (hnext : ending = .next) :
    page.countP Entry.isRead = 1 ∧ (handedOut page).length = 1 := by
  cases h with
  | skipped => exact ⟨rfl, rfl⟩
  | dropped => exact ⟨rfl, rfl⟩
  | passedOver => exact ⟨rfl, rfl⟩
  | written => exact ⟨rfl, rfl⟩
  | _ => cases hnext

/-- What is cleared in a cycle that the run goes on after does not depend on what follows. -/
theorem cleared_append (h : Page t complete ending t' page) (hnext : ending = .next)
    (rest : List Entry) : cleared (page ++ rest) = cleared page ++ cleared rest := by
  cases h with
  | skipped => rfl
  | dropped => rfl
  | @passedOver first before last r r' habort hskip =>
    have hcleared : DaqStream.cleared (judging first r r' before last) = [] :=
      (cleared_judging habort []).trans (if_pos hskip)
    rw [hcleared, cleared_judging habort, if_pos hskip]
    rfl
  | written habort hskip =>
    rw [List.append_assoc, cleared_judging habort, cleared_judging habort, if_neg hskip,
      if_neg hskip]
    rfl
  | _ => cases hnext

theorem after_true_ne_next (last : Verdict) : CycleEnd.after true last ≠ .next := by
  cases last <;> simp [CycleEnd.after]

/-- When the filters have seen all they need after a cycle that reached them, the run does not
    go on. -/
theorem ne_next (h : Page t true ending t' page) {r : Record}
    {result : Except PipelineError FilterOutput} (hreached : .filtered r result ∈ page) :
    ending ≠ .next := by
  cases h with
  | skipped => simp [taking] at hreached
  | dropped => exact after_true_ne_next _
  | passedOver => exact after_true_ne_next _
  | written => exact after_true_ne_next _
  | _ => simp

end Page

namespace Accounts

variable {t t' t'' : Tally} {entries entries' : List Entry}

theorem append (h : Accounts t t' entries) (h' : Accounts t' t'' entries')
    (hcleared : DaqStream.cleared (entries ++ entries') =
      DaqStream.cleared entries ++ DaqStream.cleared entries') :
    Accounts t t'' (entries ++ entries') where
  read := by
    rw [h'.read, h.read, handedOut_append, List.length_append, Nat.add_assoc]
  written := by
    rw [h'.written, h.written, blocks_append, List.length_append, Nat.add_assoc]
  dropped := by
    rw [h'.dropped, h.dropped, List.countP_append, Nat.add_assoc]
  cleared := by
    rw [hcleared, List.map_append, ← h.cleared, ← h'.cleared, blocks_append]
  inOrder := by
    rw [offered_append, handedOut_append]
    exact h.inOrder.append h'.inOrder
  balance := by
    have hbalance := h.balance
    have hbalance' := h'.balance
    rw [handedOut_append, blocks_append, List.length_append, List.length_append,
      List.countP_append, List.countP_append]
    omega

end Accounts

namespace Pages

variable {t t' : Tally} {outcome : Except PipelineError MediatorState} {state : MediatorState}
  {journal : List Entry}

theorem read (h : Pages t outcome t' journal) : t'.read = t.read + (handedOut journal).length := by
  induction h with
  | stop hpage => exact hpage.read
  | fail hpage => exact hpage.read
  | turn hpage _ ih =>
    rw [ih, hpage.read, handedOut_append, List.length_append, Nat.add_assoc]

/-- The pages of a run whose cycles end well account for all its records. -/
theorem accounts (h : Pages t outcome t' journal) (hends : outcome = .ok state) :
    Accounts t t' journal := by
  induction h with
  | stop hpage => exact hpage.accounts (by simp)
  | fail => cases hends
  | turn hpage _ ih =>
    exact (hpage.accounts (by simp)).append (ih hends) (hpage.cleared_append rfl _)

/-- A run has at most one refusal, and is stopped by it. -/
theorem refusals (h : Pages t outcome t' journal) (hends : outcome = .ok state) :
    journal.countP Entry.isRefusal = 0 ∨
      state = .aborted ∧ journal.countP Entry.isRefusal = 1 := by
  induction h with
  | stop hpage =>
    cases hends
    rcases hpage.refusals with hnone | ⟨hstop, hone⟩
    · exact .inl hnone
    · cases hstop
      exact .inr ⟨rfl, hone⟩
  | fail => cases hends
  | turn hpage _ ih =>
    rw [List.countP_append]
    rcases hpage.refusals with hnone | ⟨hstop, -⟩
    · rw [hnone, Nat.zero_add]
      exact ih hends
    · cases hstop

/-- All reads of a run but the last have handed out a record. -/
theorem reads_le (h : Pages t outcome t' journal) :
    journal.countP Entry.isRead ≤ (handedOut journal).length + 1 := by
  induction h with
  | stop hpage => exact Nat.le_trans hpage.reads_le (Nat.le_add_left _ _)
  | fail hpage => exact Nat.le_trans hpage.reads_le (Nat.le_add_left _ _)
  | turn hpage _ ih =>
    obtain ⟨hread, hone⟩ := hpage.reads_of_next rfl
    rw [List.countP_append, handedOut_append, List.length_append, hread, hone]
    omega

end Pages

/-- From this state on, whatever is shared, the source hands out at most so many records. -/
def RecordSource.EndsWithin {σ : Type} (ω : Type) [RecordSource ω σ] : Nat → σ → Prop
  | 0, s => ∀ (w : ω) (r : Record) (s' : σ) (w' : ω),
      RecordSource.readOne s w ≠ (.ok (some r), s', w')
  | n + 1, s => ∀ (w : ω) (r : Record) (s' : σ) (w' : ω),
      RecordSource.readOne s w = (.ok (some r), s', w') → EndsWithin ω n s'

namespace Running

variable {ω σ κ χ π : Type} [RecordSource ω σ] [RecordSink ω κ] [CustomFilter ω χ]
  [CustomPredicate ω π] {p q : Running ω σ κ χ π} {r : Record}

section Draws

/-- The source handed out one record, which was counted. -/
def Draws (p q : Running ω σ κ χ π) : Prop :=
  ∃ (w w' : ω) (r : Record),
    RecordSource.readOne p.mediator.source w = (.ok (some r), q.mediator.source, w') ∧
      q.tally.read = p.tally.read + 1

omit [RecordSource ω σ] [RecordSink ω κ] [CustomFilter ω χ] in
theorem source_of_ask {point : Checkpoint} {verdict : Verdict} (h : p.ask point = (verdict, q)) :
    q.mediator.source = p.mediator.source := by
  cases h
  rfl

omit [RecordSink ω κ] [CustomFilter ω χ] [CustomPredicate ω π] in
theorem readOne_of_read {result : Except PipelineError (Option Record)}
    (h : p.read = (result, q)) :
    RecordSource.readOne p.mediator.source p.shared = (result, q.mediator.source, q.shared) := by
  cases h
  rfl

omit [RecordSink ω κ] [CustomFilter ω χ] in
theorem Draws.ask {p₁ : Running ω σ κ χ π} {point : Checkpoint} {verdict : Verdict}
    (h : Draws p p₁) (hask : p₁.ask point = (verdict, q)) : Draws p q := by
  rcases h with ⟨w, w', r, hdrawn, hread⟩
  rw [← source_of_ask hask] at hdrawn
  rw [← tally_of_ask hask] at hread
  exact ⟨w, w', r, hdrawn, hread⟩

omit [CustomFilter ω χ] [CustomPredicate ω π] in
theorem Draws.write {p₁ : Running ω σ κ χ π} {result : Except PipelineError Unit}
    (h : Draws p p₁) (hwrite : p₁.write r = (result, q)) : Draws p q := by
  rcases hput : RecordSink.put p₁.mediator.sink r.encode p₁.shared with ⟨_ | _, sink, shared⟩
  · rw [write_eq_of_error hput] at hwrite
    cases hwrite
    exact h
  · rw [write_eq_of_ok hput] at hwrite
    cases hwrite
    exact h

omit [RecordSink ω κ] [CustomFilter ω χ] in
theorem Takes.draws {verdict : Verdict} (h : Takes p r verdict q) : Draws p q := by
  have htally := congrArg Tally.read h.tally
  rcases h with ⟨⟨hopen, -⟩, hread, hask⟩
  have hdrawn := readOne_of_read hread
  rw [source_of_ask hopen] at hdrawn
  cases hask
  exact ⟨_, _, r, hdrawn, htally⟩

omit [RecordSink ω κ] in
theorem Offers.draws {result : Except PipelineError FilterOutput} (h : Offers p r result q) :
    Draws p q := by
  rcases h with ⟨htakes, hfilter⟩
  cases hfilter
  exact htakes.draws

omit [RecordSink ω κ] in
theorem Judges.draws {r' : Record} {before last : Verdict} (h : Judges p r r' before last q) :
    Draws p q := by
  rcases h with ⟨hoffers, hbefore, -, hlast⟩
  exact (hoffers.draws.ask hbefore).ask hlast

/-- A cycle that the run goes on after has drawn a record from the source, and no cycle draws
    more than one. -/
theorem Course.draws {ending : CycleEnd} (h : Course p ending q) :
    Draws p q ∨ ending ≠ .next ∧ q.tally.read = p.tally.read := by
  cases h with
  | closed hask => exact .inr ⟨by simp, congrArg _ (tally_of_ask hask)⟩
  | unreadable hopens hread =>
    exact .inr ⟨by simp, congrArg _ ((tally_of_read hread).trans hopens.tally)⟩
  | exhausted hopens hread =>
    exact .inr ⟨by simp, congrArg _ ((tally_of_read hread).trans hopens.tally)⟩
  | refused htakes => exact .inl htakes.draws
  | skipped htakes => exact .inl htakes.draws
  | failed hoffers => exact .inl hoffers.draws
  | dropped hoffers => exact .inl hoffers.draws
  | flushed hoffers hwrite => exact .inl (hoffers.draws.write hwrite)
  | unflushed hoffers hwrite => exact .inl (hoffers.draws.write hwrite)
  | withheld hoffers hask => exact .inl (hoffers.draws.ask hask)
  | passedOver hjudges => exact .inl hjudges.draws
  | written hjudges _ hwrite => exact .inl (hjudges.draws.write hwrite)
  | unwritten hjudges _ hwrite => exact .inl (hjudges.draws.write hwrite)

end Draws

section Cycles

/-- A source that hands out at most `n` records lets a run go on after no more than `n`
    cycles. -/
theorem cycles_of_endsWithin {n : Nat} (h : RecordSource.EndsWithin ω n p.mediator.source) :
    ∃ outcome q, p.cycles (n + 1) = some (outcome, q) ∧ q.tally.read ≤ p.tally.read + n := by
  induction n generalizing p with
  | zero =>
    rcases hcycle : p.cycle with ⟨ending, p₁⟩
    rcases (course_iff.2 hcycle).draws with ⟨w, w', r, hdrawn, -⟩ | ⟨hends, hread⟩
    · exact absurd hdrawn (h w r _ w')
    · obtain ⟨outcome, hstop⟩ := cycles_succ_of_ne_next hcycle hends
      exact ⟨outcome, p₁, hstop 0, Nat.le_of_eq hread⟩
  | succ n ih =>
    rcases hcycle : p.cycle with ⟨ending, p₁⟩
    have hle : p₁.tally.read ≤ p.tally.read + (n + 1) := by
      rcases (course_iff.2 hcycle).draws with ⟨w, w', r, -, hread⟩ | ⟨-, hread⟩ <;> omega
    by_cases hnext : ending = .next
    · subst hnext
      rcases (course_iff.2 hcycle).draws with ⟨w, w', r, hdrawn, hread⟩ | ⟨hends, -⟩
      · obtain ⟨outcome, q, hrest, hcount⟩ := ih (h w r _ w' hdrawn)
        rw [cycles_succ_of_next hcycle]
        exact ⟨outcome, q, hrest, by omega⟩
      · exact absurd rfl hends
    · obtain ⟨outcome, hstop⟩ := cycles_succ_of_ne_next hcycle hnext
      exact ⟨outcome, p₁, hstop (n + 1), hle⟩

/-- A pipeline that keeps a journal keeps it in every cycle. -/
theorem after_journaled {k : Nat} {entries : List Entry}
    {q : Running (Journaled ω) σ κ (WholeChain χ) (WholeGroup π)}
    (h : (p.journaled entries).after k = some q) :
    ∃ (q₀ : Running ω σ κ χ π) (entries' : List Entry), q = q₀.journaled entries' := by
  induction k generalizing p entries with
  | zero =>
    cases h
    exact ⟨p, entries, rfl⟩
  | succ k ih =>
    obtain ⟨p₁, hcycle, hrest⟩ := after_succ h
    obtain ⟨page, hnoted, -⟩ := cycle_journaled (q := p.cycle.2) rfl entries
    rw [hcycle] at hnoted
    obtain ⟨-, hsame⟩ := Prod.mk.inj hnoted
    rw [hsame] at hrest
    exact ih hrest

end Cycles

end Running

/-- A summary that accounts for every record of a run with this journal. -/
structure RunSummary.Accounted (summary : RunSummary) (journal : List Entry) : Prop where
  read : summary.read = (handedOut journal).length
  written : summary.written = (blocks journal).length
  dropped : summary.dropped = journal.countP Entry.isDrop
  cleared : blocks journal = (cleared journal).map Record.encode
  inOrder : (offered journal).Sublist (handedOut journal)
  balance : summary.read = summary.written + summary.dropped + summary.skipped +
    if refused journal then 1 else 0
  aborted : refused journal = true → summary.state = .aborted

theorem refused_eq (journal : List Entry) (h : journal.countP Entry.isRefusal ≤ 1) :
    journal.countP Entry.isRefusal = if refused journal then 1 else 0 := by
  by_cases hrefused : refused journal = true
  · rw [if_pos hrefused]
    obtain ⟨entry, hmem, hentry⟩ := List.any_eq_true.1 hrefused
    have hpos := List.countP_pos_iff.2 ⟨entry, hmem, hentry⟩
    omega
  · rw [if_neg hrefused]
    apply List.countP_eq_zero.2
    intro entry hmem hentry
    exact hrefused (List.any_eq_true.2 ⟨entry, hmem, hentry⟩)

theorem Pages.accounted {state : MediatorState} {t : Tally} {journal : List Entry}
    (h : Pages {} (.ok state) t journal) :
    RunSummary.Accounted { toTally := t, state } journal := by
  have haccounts := h.accounts rfl
  have hread : t.read = (handedOut journal).length := haccounts.read.trans (Nat.zero_add _)
  have hwritten : t.written = (blocks journal).length :=
    haccounts.written.trans (Nat.zero_add _)
  have hdropped : t.dropped = journal.countP Entry.isDrop :=
    haccounts.dropped.trans (Nat.zero_add _)
  have hle : journal.countP Entry.isRefusal ≤ 1 := by
    rcases h.refusals rfl with hnone | ⟨-, hone⟩ <;> omega
  have hbalance := haccounts.balance
  rw [refused_eq journal hle, ← hread, ← hwritten, ← hdropped] at hbalance
  refine ⟨hread, hwritten, hdropped, haccounts.cleared, haccounts.inOrder, ?_, ?_⟩
  · dsimp only at hbalance ⊢
    omega
  · intro hrefused
    rcases h.refusals rfl with hnone | ⟨haborted, -⟩
    · rw [refused_eq journal hle, if_pos hrefused] at hnone
      cases hnone
    · exact haborted

namespace Mediator

variable {ω σ κ χ π : Type} [RecordSource ω σ] [RecordSink ω κ] [CustomFilter ω χ]
  [CustomPredicate ω π]

/-- A run that ends well accounts for every record. -/
theorem accounted_of_runWithin {m m' : Mediator σ κ χ π} {shared shared' : ω} {limit : Nat}
    {summary : RunSummary} (h : m.runWithin limit shared = some (.ok summary, m', shared')) :
    ∃ journal, m.journaled.runWithin limit (⟨shared, []⟩ : Journaled ω) =
        some (.ok summary, m'.journaled, ⟨shared', journal⟩) ∧
      summary.Accounted journal := by
  obtain ⟨journal, hrun, hjournal⟩ := runWithin_journaled h
  refine ⟨journal, hrun, ?_⟩
  cases hjournal with
  | done hpages => exact hpages.accounted

/-- When the filters have seen all they need after a cycle that reached them, nothing is done
    after that cycle but to close the run. -/
theorem entries_of_complete {m : Mediator σ κ χ π} {shared : ω} {limit k : Nat}
    {result : Except PipelineError RunSummary}
    {m' : Mediator σ κ (WholeChain χ) (WholeGroup π)} {w' : Journaled ω}
    {p q q' : Running (Journaled ω) σ κ (WholeChain χ) (WholeGroup π)} {ending : CycleEnd}
    {page : List Entry} {r : Record} {answer : Except PipelineError FilterOutput}
    (hrun : m.journaled.runWithin limit (⟨shared, []⟩ : Journaled ω) = some (result, m', w'))
    (hstart : m.journaled.start (⟨shared, []⟩ : Journaled ω) = (.ok (), p))
    (hafter : p.after k = some q) (hcycle : q.cycle = (ending, q'))
    (hpage : q'.shared.entries = q.shared.entries ++ page)
    (hreached : .filtered r answer ∈ page) (hcomplete : q'.complete = true) :
    w'.entries = q'.shared.entries := by
  rcases runWithin_eq_some.1 hrun with ⟨e, p', hfailed, -⟩ | ⟨p', outcome, last, hok, hcycles, hout⟩
  · rw [hstart] at hfailed
    cases hfailed
  · rw [hstart] at hok
    cases hok
    have hbegin := start_journaled m shared
    rw [hstart] at hbegin
    obtain ⟨-, rfl⟩ := Prod.mk.inj hbegin
    obtain ⟨q₀, entries, rfl⟩ := Running.after_journaled hafter
    obtain ⟨page', hnoted, hpage'⟩ := Running.cycle_journaled (q := q₀.cycle.2) rfl entries
    rw [hcycle] at hnoted
    obtain ⟨hending, rfl⟩ := Prod.mk.inj hnoted
    have hsame : page' = page := List.append_cancel_left hpage
    rw [Running.complete, Running.anyComplete_journaled] at hcomplete
    rw [Running.complete, hcomplete, hsame, ← hending] at hpage'
    have hlast := Running.eq_of_after hafter hcycle (hpage'.ne_next hreached) hcycles
    rw [hlast, conclude_journaled] at hout
    cases hout
    rfl

omit [RecordSource ω σ] [RecordSink ω κ] in
theorem source_start (m : Mediator σ κ χ π) (shared : ω) :
    (m.start shared).2.mediator.source = m.source := by
  unfold start
  rfl

/-- A run ends, for a source that does. -/
theorem reads_of_endsWithin {m : Mediator σ κ χ π} (shared : ω) {n : Nat}
    (h : RecordSource.EndsWithin ω n m.source) :
    ∃ result m' shared' journal,
      (∀ limit, n < limit → m.runWithin limit shared = some (result, m', shared')) ∧
      m.journaled.runWithin (n + 1) (⟨shared, []⟩ : Journaled ω) =
        some (result, m'.journaled, ⟨shared', journal⟩) ∧
      journal.countP Entry.isRead ≤ n + 1 := by
  rcases hstart : m.start shared with ⟨e | _, p⟩
  · refine ⟨_, _, _, [], ?_, runWithin_journaled_unprepared hstart, Nat.zero_le _⟩
    intro limit _
    rw [runWithin, hstart]
  · have hsource : p.mediator.source = m.source := by
      have hsame := source_start m shared
      rw [hstart] at hsame
      exact hsame
    have htally : p.tally = {} := by
      rw [← tally_start m shared, hstart]
    rw [← hsource] at h
    obtain ⟨outcome, q, hcycles, hread⟩ := Running.cycles_of_endsWithin h
    obtain ⟨journal, hrun, hpages⟩ := runWithin_journaled_of_cycles hstart hcycles
    refine ⟨_, _, _, journal, ?_, hrun, ?_⟩
    · intro limit hlimit
      rw [runWithin, hstart]
      dsimp only
      rw [Running.cycles_mono hcycles hlimit]
      rfl
    · have hreads := hpages.reads_le
      have hcount : q.tally.read = (handedOut journal).length :=
        hpages.read.trans (Nat.zero_add _)
      have hzero : p.tally.read = 0 := congrArg Tally.read htally
      omega

/-- The accounts of a run. When it ends well, every record that the source handed out is
    written, dropped, skipped or turned back, and what was put into the sink are the encodings
    of the records that were cleared for it, in order. No record is read once the filters have
    seen all they need after a cycle that reached them. When the source hands out at most `n`
    records, the run ends, with at most one read more. -/
theorem run_accounted (m : Mediator σ κ χ π) (shared : ω) :
    (∀ (limit : Nat) (summary : RunSummary) (m' : Mediator σ κ χ π) (shared' : ω),
      m.runWithin limit shared = some (.ok summary, m', shared') →
      ∃ journal, m.journaled.runWithin limit (⟨shared, []⟩ : Journaled ω) =
          some (.ok summary, m'.journaled, ⟨shared', journal⟩) ∧
        summary.Accounted journal) ∧
    (∀ (limit k : Nat) (result : Except PipelineError RunSummary)
      (m' : Mediator σ κ (WholeChain χ) (WholeGroup π)) (w' : Journaled ω)
      (p q q' : Running (Journaled ω) σ κ (WholeChain χ) (WholeGroup π)) (ending : CycleEnd)
      (page : List Entry) (r : Record) (answer : Except PipelineError FilterOutput),
      m.journaled.runWithin limit (⟨shared, []⟩ : Journaled ω) = some (result, m', w') →
      m.journaled.start (⟨shared, []⟩ : Journaled ω) = (.ok (), p) →
      p.after k = some q → q.cycle = (ending, q') →
      q'.shared.entries = q.shared.entries ++ page → .filtered r answer ∈ page →
      q'.complete = true →
      w'.entries = q'.shared.entries) ∧
    (∀ n : Nat, RecordSource.EndsWithin ω n m.source →
      ∃ result m' shared' journal,
        (∀ limit, n < limit → m.runWithin limit shared = some (result, m', shared')) ∧
        m.journaled.runWithin (n + 1) (⟨shared, []⟩ : Journaled ω) =
          some (result, m'.journaled, ⟨shared', journal⟩) ∧
        journal.countP Entry.isRead ≤ n + 1) := by
  refine ⟨?_, ?_, ?_⟩
  · intro limit summary m' shared' hrun
    exact accounted_of_runWithin hrun
  · intro limit k result m' w' p q q' ending page r answer hrun hstart hafter hcycle hpage
      hreached hcomplete
    exact entries_of_complete hrun hstart hafter hcycle hpage hreached hcomplete
  · intro n hends
    exact reads_of_endsWithin shared hends

/-- A run that is paused and ended, with the pause left out and an event behind the end. -/
def endedEarly : Mediator MemorySource MemorySink Empty Empty where
  source := { records := [
    .assemble .v12 none (.stateChange { kind := .beginRun, runNumber := 7 }),
    .assemble .v12 none (.stateChange { kind := .pauseRun, runNumber := 7 }),
    .assemble .v12 none (.stateChange { kind := .endRun, runNumber := 7 }),
    .physicsEvent .v12 none [1, 2]] }
  sink := {}
  filters := [.oneShot (.ofRunTransitions 1)]
  predicates := [.exclude [.pauseRun]]

/-- What the run of `endedEarly` reports. -/
def endedEarlySummary : RunSummary where
  read := 3
  written := 2
  skipped := 1
  state := .finished

theorem run_accounted_endedEarly :
    RecordSource.EndsWithin Unit 4 endedEarly.source ∧
    ∃ m' journal p q q' page r answer,
      endedEarly.runWithin 5 () = some (.ok endedEarlySummary, m', ()) ∧
      endedEarlySummary.Accounted journal ∧ journal.countP Entry.isRead ≤ 5 ∧
      endedEarly.journaled.start (⟨(), []⟩ : Journaled Unit) = (.ok (), p) ∧
      p.after 2 = some q ∧ q.cycle = (.stop .finished, q') ∧
      q'.shared.entries = q.shared.entries ++ page ∧ .filtered r answer ∈ page ∧
      q'.complete = true ∧ journal = q'.shared.entries := by
  obtain ⟨haccounts, hcomplete, hends⟩ := run_accounted endedEarly ()
  have hsource : RecordSource.EndsWithin Unit 4 endedEarly.source := by
    simp [RecordSource.EndsWithin, endedEarly, RecordSource.readOne, MemorySource.readOne]
  obtain ⟨result, m', shared', journal, hruns, hjournaled, hreads⟩ := hends 4 hsource
  have hrun := hruns 5 (by decide)
  have hresult : (endedEarly.runWithin 5 ()).map (fun out => out.1.toOption) =
      some (some endedEarlySummary) := by
    decide +kernel
  rw [hrun] at hresult
  cases result with
  | error e => cases hresult
  | ok summary =>
    cases hresult
    obtain ⟨journal', hjournaled', haccounted⟩ := haccounts 5 _ _ _ hrun
    rw [hjournaled] at hjournaled'
    cases hjournaled'
    have hstart : endedEarly.journaled.start (⟨(), []⟩ : Journaled Unit) =
        (.ok (), (endedEarly.start ()).2.journaled []) := by
      rw [start_journaled]
      rfl
    -- The third cycle hands the end of the run to the filters, which are complete after it.
    have hthird : (((endedEarly.start ()).2.journaled []).after 2).map (fun q =>
          (q.cycle.1, q.cycle.2.complete, (offered q.shared.entries).length,
            (offered q.cycle.2.shared.entries).length)) =
        some (.stop .finished, true, 1, 2) := by
      decide +kernel
    obtain ⟨q, hafter, hcycle⟩ := Option.map_eq_some_iff.1 hthird
    obtain ⟨q₀, entries, rfl⟩ := Running.after_journaled hafter
    obtain ⟨page, hnoted, -⟩ := Running.cycle_journaled (q := q₀.cycle.2) rfl entries
    rw [hnoted] at hcycle
    simp only [Prod.mk.injEq] at hcycle
    obtain ⟨hending, hdone, hbefore, hbehind⟩ := hcycle
    rw [hending] at hnoted
    have hoffered : (offered page).length = 1 := by
      have hsplit := congrArg List.length (offered_append entries page)
      rw [List.length_append] at hsplit
      change (offered entries).length = 1 at hbefore
      change (offered (entries ++ page)).length = 2 at hbehind
      omega
    obtain ⟨r, hr⟩ := List.length_eq_one_iff.1 hoffered
    obtain ⟨entry, hmem, hentry⟩ := List.mem_filterMap.1 (hr ▸ List.mem_singleton_self r)
    cases entry with
    | filtered r' answer =>
      exact ⟨hsource, m', journal, _, _, _, page, r', answer, hrun, haccounted, hreads, hstart, hafter,
        hnoted, rfl, hmem, hdone,
        hcomplete _ _ _ _ _ _ _ _ _ _ _ _ hjournaled hstart hafter hnoted rfl hmem hdone⟩
    | asked => cases hentry
    | read => cases hentry
    | put => cases hentry

end Mediator

end DaqStream
