import DaqStream.Proofs.Run.Interleaving

/-!
# The history of a barrier

A barrier may be built for any kinds, even for the same kind twice, and it may be offered
transitions and reset in any order. `History` keeps beside it the transitions that it accepted since
it was last reset; those from the first begin on are the run. `Accounts` says what the barrier knows
of them: every call keeps it (`Accounts.call`), so it holds after all sequences of calls, and it is
enough to tell which transition is refused next, and why (`accounts_history`). The calls are made in
place, so that a refusal could leave something behind; none does.
-/

namespace DaqStream

namespace RunBarrier

section Counts

theorem lookup_map_zero (kinds : List RecordKind) (k : RecordKind) :
    ((kinds.map fun k => (k, 0)).lookup k : Option Nat) = if k ∈ kinds then some 0 else none := by
  induction kinds with
  | nil => rfl
  | cons kind kinds ih =>
    by_cases hk : k = kind
    · subst hk
      simp
    · have hne : (k == kind) = false := by simpa using hk
      simp [List.lookup_cons, hne, ih, hk]

theorem mem_distinct (kinds : List RecordKind) (k : RecordKind) :
    k ∈ distinct kinds ↔ k ∈ kinds := by
  induction kinds with
  | nil => rfl
  | cons kind kinds ih =>
    by_cases hk : k = kind
    · simp [distinct, hk]
    · simp [distinct, hk, ih]

/-- A barrier counts the kinds that it was built for. -/
theorem tracks_new (sources : Nat) (beginKind endKind : RecordKind) (others : List RecordKind)
    (k : RecordKind) :
    (new sources beginKind endKind others).tracks k = true ↔ k ∈ beginKind :: endKind :: others := by
  simp only [tracks, new, lookup_map_zero, mem_distinct]
  split
  · simp_all
  · simp_all

theorem count_new (sources : Nat) (beginKind endKind : RecordKind) (others : List RecordKind)
    (k : RecordKind) : (new sources beginKind endKind others).count k = 0 := by
  simp only [count, new, lookup_map_zero]
  split <;> rfl

variable (b : RunBarrier) (k : RecordKind)

theorem tracks_reset : b.reset.tracks k = b.tracks k := by
  simp only [tracks, reset, lookup_cleared, Option.isSome_map]

theorem count_reset : b.reset.count k = 0 := by
  simp only [count, reset, lookup_cleared]
  cases b.counts.lookup k <;> rfl

end Counts

/-- The transitions of a run, which starts with the first begin. -/
def sinceBegin (beginKind : RecordKind) (transitions : List (RecordKind × UInt32)) :
    List (RecordKind × UInt32) :=
  transitions.dropWhile (·.1 ≠ beginKind)

section SinceBegin

variable {beginKind : RecordKind} {transitions : List (RecordKind × UInt32)}
  {t : RecordKind × UInt32}

/-- Where no run has begun, one more transition can only begin one. -/
theorem sinceBegin_concat_of_nil (h : sinceBegin beginKind transitions = []) :
    sinceBegin beginKind (transitions ++ [t]) = if t.1 = beginKind then [t] else [] := by
  unfold sinceBegin at h ⊢
  rw [List.dropWhile_append, h]
  by_cases ht : t.1 = beginKind
  · simp [ht]
  · simp [ht]

theorem sinceBegin_concat_of_ne_nil (h : sinceBegin beginKind transitions ≠ []) :
    sinceBegin beginKind (transitions ++ [t]) = sinceBegin beginKind transitions ++ [t] := by
  unfold sinceBegin at h ⊢
  rw [List.dropWhile_append, if_neg (by simpa using h)]

theorem fst_of_head?_sinceBegin (h : (sinceBegin beginKind transitions).head? = some t) :
    t.1 = beginKind := by
  have hfirst := List.head?_dropWhile_not
    (fun t : RecordKind × UInt32 => decide (t.1 ≠ beginKind)) transitions
  rw [sinceBegin] at h
  rw [h] at hfirst
  simpa using hfirst

end SinceBegin

/-- What can be asked of a barrier. -/
inductive Call where
  | update (kind : RecordKind) (run : UInt32)
  | reset
  deriving DecidableEq, Repr

/-- A barrier and the transitions that it accepted since it was last reset. -/
structure History where
  barrier : RunBarrier
  accepted : List (RecordKind × UInt32) := []

namespace History

variable {h : History} {b' : RunBarrier} {kind : RecordKind} {run : UInt32} {e : TransitionError}

/-- What comes of one more call. -/
def call (h : History) : Call → History
  | .update kind run =>
    match updateInPlace kind run h.barrier with
    | .ok () b' => { barrier := b', accepted := h.accepted ++ [(kind, run)] }
    | .error _ b' => { h with barrier := b' }
  | .reset => { barrier := h.barrier.reset }

theorem call_of_ok (hupdate : h.barrier.update kind run = .ok b') :
    h.call (.update kind run) = { barrier := b', accepted := h.accepted ++ [(kind, run)] } := by
  rw [call, updateInPlace_eq, hupdate]

theorem call_of_error (hupdate : h.barrier.update kind run = .error e) :
    h.call (.update kind run) = h := by
  rw [call, updateInPlace_eq, hupdate]

end History

/-- What a barrier that was built as `b₀` knows of its history: how often each of its kinds occurs
    in the run, and the number of the run. -/
structure Accounts (b₀ : RunBarrier) (h : History) : Prop where
  expected : h.barrier.expected = b₀.expected
  beginKind : h.barrier.beginKind = b₀.beginKind
  endKind : h.barrier.endKind = b₀.endKind
  tracks : ∀ k, h.barrier.tracks k = b₀.tracks k
  count : ∀ k, b₀.tracks k = true →
    h.barrier.count k = (sinceBegin b₀.beginKind h.accepted).countP (·.1 = k)
  runNumber : h.barrier.runNumber = (sinceBegin b₀.beginKind h.accepted).head?.map Prod.snd
  begins : h.barrier.count b₀.beginKind ≤ b₀.expected
  ends : h.barrier.count b₀.endKind ≤ b₀.expected
  complete : h.barrier.complete = true ↔ h.barrier.count b₀.endKind = b₀.expected

/-- A barrier as it is built: it has counted nothing, and it counts begins and ends. -/
structure Unused (b : RunBarrier) : Prop where
  expected : 0 < b.expected
  tracks_begin : b.tracks b.beginKind = true
  tracks_end : b.tracks b.endKind = true
  count : ∀ k, b.count k = 0
  runNumber : b.runNumber = none
  complete : b.complete = false

theorem unused_new (sources : Nat) (beginKind endKind : RecordKind) (others : List RecordKind) :
    Unused (new sources beginKind endKind others) where
  expected := Nat.lt_of_lt_of_le Nat.zero_lt_one (Nat.le_max_right sources 1)
  tracks_begin := (tracks_new sources beginKind endKind others beginKind).2 (by simp)
  tracks_end := (tracks_new sources beginKind endKind others endKind).2 (by simp)
  count := count_new sources beginKind endKind others
  runNumber := rfl
  complete := rfl

namespace Accounts

variable {b₀ b' : RunBarrier} {h : History} {kind : RecordKind} {run : UInt32}

theorem waiting_iff (hb₀ : Unused b₀) (ha : Accounts b₀ h) :
    h.barrier.waiting = true ↔ sinceBegin b₀.beginKind h.accepted = [] := by
  have hcount := ha.count b₀.beginKind hb₀.tracks_begin
  rw [RunBarrier.waiting, ha.beginKind, hcount, beq_iff_eq, List.countP_eq_zero]
  constructor
  · intro hnone
    cases hrun : sinceBegin b₀.beginKind h.accepted with
    | nil => rfl
    | cons t ts =>
      have hfirst : t.1 = b₀.beginKind := fst_of_head?_sinceBegin (by rw [hrun]; rfl)
      exact absurd (by simpa using hfirst) (hnone t (by simp [hrun]))
  · intro hrun
    simp [hrun]

/-- A barrier without a run has counted nothing. -/
theorem of_nil (hb₀ : Unused b₀) {b : RunBarrier} {accepted : List (RecordKind × UInt32)}
    (hexpected : b.expected = b₀.expected) (hbegin : b.beginKind = b₀.beginKind)
    (hend : b.endKind = b₀.endKind) (htracks : ∀ k, b.tracks k = b₀.tracks k)
    (hcount : ∀ k, b₀.tracks k = true → b.count k = 0) (hnumber : b.runNumber = none)
    (hcomplete : b.complete = false) (hrun : sinceBegin b₀.beginKind accepted = []) :
    Accounts b₀ { barrier := b, accepted } := by
  have hends := hcount _ hb₀.tracks_end
  refine ⟨hexpected, hbegin, hend, htracks, ?_, ?_, ?_, ?_, ?_⟩
  · intro k hk
    dsimp only
    rw [hrun, hcount k hk]
    rfl
  · dsimp only
    rw [hrun, hnumber]
    rfl
  · exact (hcount _ hb₀.tracks_begin).symm ▸ Nat.zero_le _
  · exact hends.symm ▸ Nat.zero_le _
  · dsimp only
    rw [hcomplete, hends]
    exact iff_of_false Bool.false_ne_true (Nat.ne_of_lt hb₀.expected)

theorem of_unused (hb₀ : Unused b₀) : Accounts b₀ { barrier := b₀ } :=
  .of_nil hb₀ rfl rfl rfl (fun _ => rfl) (fun k _ => hb₀.count k) hb₀.runNumber hb₀.complete rfl

theorem reset (hb₀ : Unused b₀) (ha : Accounts b₀ h) : Accounts b₀ (h.call .reset) := by
  refine .of_nil hb₀ ha.expected ha.beginKind ha.endKind ?_ ?_ rfl rfl rfl
  · intro k
    rw [tracks_reset]
    exact ha.tracks k
  · intro k _
    exact count_reset h.barrier k

section Accepted

/-! There is one lemma for each way in which a transition is accepted. -/

theorem ignored (ha : Accounts b₀ h) (hb₀ : Unused b₀) (huntracked : h.barrier.tracks kind = false) :
    Accounts b₀ { barrier := h.barrier, accepted := h.accepted ++ [(kind, run)] } := by
  have hne : ∀ k, b₀.tracks k = true → kind ≠ k := by
    intro k hk hkind
    rw [ha.tracks kind, hkind, hk] at huntracked
    cases huntracked
  by_cases hnone : sinceBegin b₀.beginKind h.accepted = []
  · have hstill : sinceBegin b₀.beginKind (h.accepted ++ [(kind, run)]) =
        sinceBegin b₀.beginKind h.accepted := by
      rw [sinceBegin_concat_of_nil hnone, if_neg (hne _ hb₀.tracks_begin), hnone]
    refine ⟨ha.expected, ha.beginKind, ha.endKind, ha.tracks, ?_, ?_, ha.begins, ha.ends,
      ha.complete⟩
    · rw [hstill]
      exact ha.count
    · rw [hstill]
      exact ha.runNumber
  · refine ⟨ha.expected, ha.beginKind, ha.endKind, ha.tracks, ?_, ?_, ha.begins, ha.ends,
      ha.complete⟩
    · intro k hk
      rw [sinceBegin_concat_of_ne_nil hnone, List.countP_append, ← ha.count k hk]
      simp [hne k hk]
    · rw [sinceBegin_concat_of_ne_nil hnone, List.head?_append_of_ne_nil _ hnone]
      exact ha.runNumber

theorem early (ha : Accounts b₀ h) (hb₀ : Unused b₀) (hwaiting : h.barrier.waiting = true)
    (hkind : kind ≠ h.barrier.beginKind) :
    Accounts b₀ { barrier := h.barrier.settle, accepted := h.accepted ++ [(kind, run)] } := by
  have hnone := (waiting_iff hb₀ ha).1 hwaiting
  have hcount : ∀ k, b₀.tracks k = true → h.barrier.count k = 0 := by
    intro k hk
    rw [ha.count k hk, hnone]
    rfl
  refine .of_nil hb₀ ha.expected ha.beginKind ha.endKind ha.tracks hcount ?_ ?_ ?_
  · show h.barrier.runNumber = none
    rw [ha.runNumber, hnone]
    rfl
  · show (h.barrier.count h.barrier.endKind == h.barrier.expected) = false
    rw [ha.endKind, ha.expected, hcount _ hb₀.tracks_end, beq_eq_false_iff_ne]
    exact Nat.ne_of_lt hb₀.expected
  · rw [ha.beginKind] at hkind
    rw [sinceBegin_concat_of_nil hnone, if_neg hkind]

theorem first (ha : Accounts b₀ h) (hb₀ : Unused b₀) (hwaiting : h.barrier.waiting = true)
    (hkind : kind = h.barrier.beginKind) :
    Accounts b₀
      { barrier := settle
          { h.barrier with counts := bump kind h.barrier.cleared, runNumber := some run }
        accepted := h.accepted ++ [(kind, run)] } := by
  have hbegin : kind = b₀.beginKind := hkind.trans ha.beginKind
  have hrun : sinceBegin b₀.beginKind (h.accepted ++ [(kind, run)]) = [(kind, run)] := by
    rw [sinceBegin_concat_of_nil ((waiting_iff hb₀ ha).1 hwaiting), if_pos hbegin]
  have hcount : ∀ k, b₀.tracks k = true →
      ((bump kind h.barrier.cleared).lookup k).getD 0 = if k = kind then 1 else 0 := by
    intro k hk
    have htracks : (h.barrier.counts.lookup k).isSome = true := (ha.tracks k).trans hk
    obtain ⟨m, hm⟩ := Option.isSome_iff_exists.1 htracks
    simp [lookup_bump, lookup_cleared, hm]
  have hone : ∀ k, b₀.tracks k = true →
      ((bump kind h.barrier.cleared).lookup k).getD 0 ≤ b₀.expected := by
    intro k hk
    have hpos := hb₀.expected
    rw [hcount k hk]
    split <;> omega
  refine ⟨ha.expected, ha.beginKind, ha.endKind, ?_, ?_, ?_, hone _ hb₀.tracks_begin,
    hone _ hb₀.tracks_end, ?_⟩
  · intro k
    rw [← ha.tracks k]
    show ((bump kind h.barrier.cleared).lookup k).isSome = (h.barrier.counts.lookup k).isSome
    rw [lookup_bump, lookup_cleared, Option.isSome_map, Option.isSome_map]
  · intro k hk
    rw [hrun]
    show ((bump kind h.barrier.cleared).lookup k).getD 0 = _
    rw [hcount k hk, List.countP_singleton]
    simp [eq_comm]
  · rw [hrun]
    rfl
  · show (((bump kind h.barrier.cleared).lookup h.barrier.endKind).getD 0 ==
      h.barrier.expected) = true ↔ _
    rw [ha.endKind, ha.expected, beq_iff_eq]
    rfl

theorem next (ha : Accounts b₀ h) (hb₀ : Unused b₀) (hopen : h.barrier.complete = false)
    (hwaiting : h.barrier.waiting = false)
    (hroom : ¬ (kind = h.barrier.beginKind ∧ h.barrier.expected ≤ h.barrier.count kind)) :
    Accounts b₀
      { barrier := settle { h.barrier with counts := bump kind h.barrier.counts }
        accepted := h.accepted ++ [(kind, run)] } := by
  have hbegun : sinceBegin b₀.beginKind h.accepted ≠ [] := by
    intro hnone
    rw [(waiting_iff hb₀ ha).2 hnone] at hwaiting
    cases hwaiting
  have hcount : ∀ k, b₀.tracks k = true →
      ({ h.barrier with counts := bump kind h.barrier.counts } : RunBarrier).count k =
        h.barrier.count k + if k = kind then 1 else 0 := by
    intro k hk
    exact count_bump ((ha.tracks k).trans hk)
  refine ⟨ha.expected, ha.beginKind, ha.endKind, ?_, ?_, ?_, ?_, ?_, ?_⟩
  · intro k
    exact (tracks_bump kind k h.barrier).trans (ha.tracks k)
  · intro k hk
    refine (hcount k hk).trans ?_
    rw [sinceBegin_concat_of_ne_nil hbegun, List.countP_append, List.countP_singleton,
      ← ha.count k hk]
    simp [eq_comm]
  · rw [sinceBegin_concat_of_ne_nil hbegun, List.head?_append_of_ne_nil _ hbegun]
    exact ha.runNumber
  · refine Nat.le_trans (Nat.le_of_eq (hcount _ hb₀.tracks_begin)) ?_
    have hbegins := ha.begins
    by_cases hkind : b₀.beginKind = kind
    · have hless : h.barrier.count kind < b₀.expected := by
        rw [← ha.expected]
        apply Nat.lt_of_not_le
        intro hfull
        exact hroom ⟨by rw [ha.beginKind, hkind], hfull⟩
      rw [if_pos hkind, hkind]
      exact hless
    · rw [if_neg hkind]
      exact hbegins
  · refine Nat.le_trans (Nat.le_of_eq (hcount _ hb₀.tracks_end)) ?_
    have hends := ha.ends
    have hne : h.barrier.count b₀.endKind ≠ b₀.expected := by
      intro hall
      rw [ha.complete.2 hall] at hopen
      cases hopen
    split <;> omega
  · show (({ h.barrier with counts := bump kind h.barrier.counts } : RunBarrier).count
      h.barrier.endKind == h.barrier.expected) = true ↔ _
    rw [ha.endKind, ha.expected, beq_iff_eq]
    rfl

end Accepted

/-- Every call keeps the account. -/
theorem call (hb₀ : Unused b₀) (ha : Accounts b₀ h) (c : Call) : Accounts b₀ (h.call c) := by
  cases c with
  | reset => exact ha.reset hb₀
  | update kind run =>
    cases hupdate : h.barrier.update kind run with
    | error e =>
      rw [History.call_of_error hupdate]
      exact ha
    | ok b' =>
      rw [History.call_of_ok hupdate]
      obtain ⟨hopen, haccounted⟩ := accounted_of_update hupdate
      cases haccounted with
      | ignored huntracked => exact ha.ignored hb₀ huntracked
      | early _ hwaiting hkind => exact ha.early hb₀ hwaiting hkind
      | first _ hwaiting hkind => exact ha.first hb₀ hwaiting hkind
      | next _ hwaiting _ hroom => exact ha.next hb₀ hopen hwaiting hroom

/-- So any sequence of calls does. -/
theorem calls (hb₀ : Unused b₀) (ha : Accounts b₀ h) (cs : List Call) :
    Accounts b₀ (cs.foldl History.call h) := by
  induction cs generalizing h with
  | nil => exact ha
  | cons c cs ih => exact ih (ha.call hb₀ c)

/-- No run has begun exactly when no number is known. -/
theorem waiting_iff_runNumber (hb₀ : Unused b₀) (ha : Accounts b₀ h) :
    h.barrier.waiting = true ↔ h.barrier.runNumber = none := by
  rw [ha.waiting_iff hb₀, ha.runNumber, Option.map_eq_none_iff, List.head?_eq_none_iff]

/-- And exactly when nothing has been counted. -/
theorem waiting_iff_count (hb₀ : Unused b₀) (ha : Accounts b₀ h) :
    h.barrier.waiting = true ↔ ∀ k, b₀.tracks k = true → h.barrier.count k = 0 := by
  constructor
  · intro hwaiting k hk
    rw [ha.count k hk, (ha.waiting_iff hb₀).1 hwaiting]
    rfl
  · intro hnone
    rw [RunBarrier.waiting, ha.beginKind, hnone _ hb₀.tracks_begin]
    rfl

theorem waiting_eq_false (hb₀ : Unused b₀) (ha : Accounts b₀ h) {current : UInt32}
    (hnumber : h.barrier.runNumber = some current) : h.barrier.waiting = false := by
  rw [← Bool.not_eq_true, ha.waiting_iff_runNumber hb₀, hnumber]
  simp

/-- What the next transition is refused for, said in terms of what can be asked of the barrier. -/
theorem update_eq_error_iff (hb₀ : Unused b₀) (ha : Accounts b₀ h) {e : TransitionError} :
    h.barrier.update kind run = .error e ↔
      (h.barrier.complete = true ∧ e = .extraTransition kind run) ∨
      (h.barrier.complete = false ∧ h.barrier.tracks kind = true ∧
        ∃ current, h.barrier.runNumber = some current ∧ current ≠ run ∧
          e = .runNumberMismatch kind current run) ∨
      (h.barrier.complete = false ∧ h.barrier.runNumber = some run ∧ kind = b₀.beginKind ∧
        h.barrier.count b₀.beginKind = b₀.expected ∧ e = .tooManyBegins b₀.expected run) := by
  constructor
  · intro herror
    cases refused_of_update herror with
    | extra hcomplete => exact .inl ⟨hcomplete, rfl⟩
    | otherRun hopen htracks _ hnumber hother =>
      exact .inr (.inl ⟨hopen, htracks, _, hnumber, hother, rfl⟩)
    | surplus hopen _ hwaiting hrun hkind hfull =>
      have hsome : h.barrier.runNumber ≠ none := by
        intro hnone
        rw [(ha.waiting_iff_runNumber hb₀).2 hnone] at hwaiting
        cases hwaiting
      obtain ⟨current, hcurrent⟩ := Option.ne_none_iff_exists'.1 hsome
      rw [ha.expected] at hfull ⊢
      rw [ha.beginKind] at hkind
      rw [hkind] at hfull
      exact .inr (.inr ⟨hopen, hrun current hcurrent ▸ hcurrent, hkind,
        Nat.le_antisymm ha.begins hfull, rfl⟩)
  · intro hrefused
    apply update_of_refused
    rcases hrefused with ⟨hcomplete, rfl⟩ | ⟨hopen, htracks, current, hnumber, hother, rfl⟩ |
      ⟨hopen, hnumber, hkind, hfull, rfl⟩
    · exact .extra hcomplete
    · exact .otherRun hopen htracks (ha.waiting_eq_false hb₀ hnumber) hnumber hother
    · have hrun : ∀ current, h.barrier.runNumber = some current → current = run := by
        intro current hcurrent
        rw [hnumber] at hcurrent
        exact (Option.some.inj hcurrent).symm
      rw [← ha.expected]
      refine .surplus hopen ?_ (ha.waiting_eq_false hb₀ hnumber) hrun (hkind.trans ha.beginKind.symm)
        ?_
      · rw [hkind, ha.tracks]
        exact hb₀.tracks_begin
      · apply Nat.le_of_eq
        rw [hkind, hfull, ha.expected]

/-- A kind that is not counted leaves no trace, whether it is refused or not. -/
theorem barrier_call_of_untracked (huntracked : h.barrier.tracks kind = false) :
    (h.call (.update kind run)).barrier = h.barrier := by
  by_cases hcomplete : h.barrier.complete = true
  · rw [History.call_of_error (update_of_complete hcomplete kind run)]
  · have hopen : h.barrier.complete = false := by simpa using hcomplete
    rw [History.call_of_ok (update_of_accounted hopen (.ignored huntracked))]

end Accounts

/-- Whatever a barrier was asked, in whatever order: it waits as long as it knows no number, which
    is as long as it has counted nothing; it has seen no more begins and ends than there are
    producers, and is complete when all have ended; its counts are those of the run, and its number
    is that of the first begin. What it refuses is exactly what may not follow, and a refusal
    changes nothing. -/
theorem accounts_history (sources : Nat) (beginKind endKind : RecordKind)
    (others : List RecordKind) (calls : List Call) :
    let h := calls.foldl History.call { barrier := new sources beginKind endKind others }
    let b := h.barrier
    let run := sinceBegin beginKind h.accepted
    (∀ k, b.tracks k = true ↔ k = beginKind ∨ k = endKind ∨ k ∈ others) ∧
    (b.waiting = true ↔ b.runNumber = none) ∧
    (b.waiting = true ↔ ∀ k, b.tracks k = true → b.count k = 0) ∧
    b.count beginKind ≤ max sources 1 ∧ b.count endKind ≤ max sources 1 ∧
    (b.complete = true ↔ b.count endKind = max sources 1) ∧
    (∀ k, b.tracks k = true → b.count k = run.countP (·.1 = k)) ∧
    b.runNumber = run.head?.map Prod.snd ∧ (∀ t, run.head? = some t → t.1 = beginKind) ∧
    ∀ (kind : RecordKind) (number : UInt32),
      (∀ e, b.update kind number = .error e ↔
        (b.complete = true ∧ e = .extraTransition kind number) ∨
        (b.complete = false ∧ b.tracks kind = true ∧
          ∃ current, b.runNumber = some current ∧ current ≠ number ∧
            e = .runNumberMismatch kind current number) ∨
        (b.complete = false ∧ b.runNumber = some number ∧ kind = beginKind ∧
          b.count beginKind = max sources 1 ∧ e = .tooManyBegins (max sources 1) number)) ∧
      (∀ e, b.update kind number = .error e →
        updateInPlace kind number b = .error e b ∧ h.call (.update kind number) = h) ∧
      (∀ b', b.update kind number = .ok b' →
        h.call (.update kind number) =
          { barrier := b', accepted := h.accepted ++ [(kind, number)] }) ∧
      (b.tracks kind = false → (h.call (.update kind number)).barrier = b) := by
  intro h b run
  have hb₀ := unused_new sources beginKind endKind others
  have ha : Accounts (new sources beginKind endKind others) h :=
    (Accounts.of_unused hb₀).calls hb₀ calls
  have htracks : ∀ k, b.tracks k = true ↔ k = beginKind ∨ k = endKind ∨ k ∈ others := by
    intro k
    rw [ha.tracks k, tracks_new]
    simp
  refine ⟨htracks, ha.waiting_iff_runNumber hb₀, ?_, ha.begins, ha.ends, ha.complete, ?_,
    ha.runNumber, fun t => fst_of_head?_sinceBegin, ?_⟩
  · rw [ha.waiting_iff_count hb₀]
    exact forall_congr' fun k => by rw [ha.tracks k]
  · intro k hk
    exact ha.count k ((ha.tracks k).symm.trans hk)
  · intro kind number
    refine ⟨fun e => ha.update_eq_error_iff hb₀, ?_, fun b' => History.call_of_ok,
      Accounts.barrier_call_of_untracked⟩
    intro e herror
    exact ⟨updateInPlace_of_refused (refused_of_update herror), History.call_of_error herror⟩

/-- One kind may be both the begin and the end of a run. -/
example : (([.update .scaler 4, .update .scaler 5, .update .scaler 4] : List Call).foldl History.call
    { barrier := new 2 .scaler .scaler [] }).barrier.complete = true := by
  decide

end RunBarrier

end DaqStream
