import DaqStream.Run.Barrier

/-!
# What a barrier has counted

Each way in which a barrier accounts for a transition has one lemma. A barrier for run
transitions that has seen its first begin is described by the transitions since then
(`Follows`): its counts are theirs, and the next transition extends them or is refused.

A transition is offered to a barrier in place, with its checks and assignments in their order. A
refusal comes before the first assignment, so it leaves the barrier as it was
(`updateInPlace_eq`).
-/

namespace DaqStream

namespace RunBarrier

section Counts

/-- Counts may change with their kinds. -/
theorem lookup_map_snd (change : RecordKind → Nat → Nat) (counts : List (RecordKind × Nat))
    (k : RecordKind) :
    (counts.map fun c => (c.1, change c.1 c.2)).lookup k = (counts.lookup k).map (change k) := by
  induction counts with
  | nil => rfl
  | cons c counts ih =>
    obtain ⟨key, n⟩ := c
    by_cases hk : k = key
    · subst hk
      simp
    · have hne : (k == key) = false := by simpa using hk
      simp only [List.map_cons, List.lookup_cons, hne]
      exact ih

theorem lookup_bump (kind k : RecordKind) (counts : List (RecordKind × Nat)) :
    (bump kind counts).lookup k =
      (counts.lookup k).map fun n => if k = kind then n + 1 else n := by
  have hbump : bump kind counts =
      counts.map fun c => (c.1, if c.1 = kind then c.2 + 1 else c.2) := by
    refine List.map_congr_left fun c _ => ?_
    split <;> rfl
  rw [hbump]
  exact lookup_map_snd (fun key n => if key = kind then n + 1 else n) counts k

theorem lookup_cleared (b : RunBarrier) (k : RecordKind) :
    b.cleared.lookup k = (b.counts.lookup k).map fun _ => 0 :=
  lookup_map_snd (fun _ _ => 0) b.counts k

theorem keys_bump (kind : RecordKind) (counts : List (RecordKind × Nat)) :
    (bump kind counts).map Prod.fst = counts.map Prod.fst := by
  simp only [bump, List.map_map]
  refine List.map_congr_left fun c _ => ?_
  simp only [Function.comp]
  split <;> rfl

theorem keys_cleared (b : RunBarrier) : b.cleared.map Prod.fst = b.counts.map Prod.fst := by
  simp only [cleared, List.map_map]
  rfl

/-- Without its counts, a barrier is the kinds that it counts and what it counts them for. -/
theorem reset_eq_of_keys {b b' : RunBarrier} (hexpected : b'.expected = b.expected)
    (hbegin : b'.beginKind = b.beginKind) (hend : b'.endKind = b.endKind)
    (hkeys : b'.counts.map Prod.fst = b.counts.map Prod.fst) : b'.reset = b.reset := by
  have hcleared (c : RunBarrier) : c.cleared = (c.counts.map Prod.fst).map fun k => (k, 0) := by
    rw [List.map_map]
    rfl
  rw [reset, reset, hcleared b', hcleared b, hkeys, hexpected, hbegin, hend]

end Counts

section Update

variable {b b' : RunBarrier} {kind : RecordKind} {run : UInt32} {e : TransitionError}

/-- What becomes of a barrier that accounts for a transition. -/
inductive Accounted (b : RunBarrier) (kind : RecordKind) (run : UInt32) : RunBarrier → Prop
  /-- The kind is not counted. -/
  | ignored : b.tracks kind = false → Accounted b kind run b
  /-- No begin has been seen, and this is none. -/
  | early : b.tracks kind = true → b.waiting = true → kind ≠ b.beginKind →
      Accounted b kind run b.settle
  /-- The first begin starts the count. -/
  | first : b.tracks kind = true → b.waiting = true → kind = b.beginKind →
      Accounted b kind run
        (settle { b with counts := bump kind b.cleared, runNumber := some run })
  /-- Any other transition of the run in progress is counted. -/
  | next : b.tracks kind = true → b.waiting = false →
      (∀ current, b.runNumber = some current → current = run) →
      ¬ (kind = b.beginKind ∧ b.expected ≤ b.count kind) →
      Accounted b kind run (settle { b with counts := bump kind b.counts })

/-- Why a barrier refuses a transition. -/
inductive Refused (b : RunBarrier) (kind : RecordKind) (run : UInt32) : TransitionError → Prop
  /-- Nothing may follow a run. -/
  | extra : b.complete = true → Refused b kind run (.extraTransition kind run)
  /-- Another run is in progress. -/
  | otherRun {current : UInt32} : b.complete = false → b.tracks kind = true →
      b.waiting = false → b.runNumber = some current → current ≠ run →
      Refused b kind run (.runNumberMismatch kind current run)
  /-- Every producer has begun the run. -/
  | surplus : b.complete = false → b.tracks kind = true → b.waiting = false →
      (∀ current, b.runNumber = some current → current = run) → kind = b.beginKind →
      b.expected ≤ b.count kind → Refused b kind run (.tooManyBegins b.expected run)

/-- There are no other ways. -/
theorem refused_or_accounted (b : RunBarrier) (kind : RecordKind) (run : UInt32) :
    (∃ e, Refused b kind run e) ∨ b.complete = false ∧ ∃ b', Accounted b kind run b' := by
  by_cases hcomplete : b.complete = true
  · exact .inl ⟨_, .extra hcomplete⟩
  have hopen : b.complete = false := by simpa using hcomplete
  by_cases htracks : b.tracks kind = true
  · by_cases hwaiting : b.waiting = true
    · by_cases hkind : kind = b.beginKind
      · exact .inr ⟨hopen, _, .first htracks hwaiting hkind⟩
      · exact .inr ⟨hopen, _, .early htracks hwaiting hkind⟩
    · have hbegun : b.waiting = false := by simpa using hwaiting
      by_cases hrun : ∀ current, b.runNumber = some current → current = run
      · by_cases hfull : kind = b.beginKind ∧ b.expected ≤ b.count kind
        · exact .inl ⟨_, .surplus hopen htracks hbegun hrun hfull.1 hfull.2⟩
        · exact .inr ⟨hopen, _, .next htracks hbegun hrun hfull⟩
      · have hother : ∃ current, b.runNumber = some current ∧ current ≠ run := by
          simpa using hrun
        obtain ⟨current, hnumber, hne⟩ := hother
        exact .inl ⟨_, .otherRun hopen htracks hbegun hnumber hne⟩
  · exact .inr ⟨hopen, _, .ignored (by simpa using htracks)⟩

theorem update_of_complete (h : b.complete = true) (kind : RecordKind) (run : UInt32) :
    b.update kind run = .error (.extraTransition kind run) := by
  rw [update, if_pos h]

theorem update_of_otherRun {current : UInt32} (hopen : b.complete = false)
    (htracks : b.tracks kind = true) (hwaiting : b.waiting = false)
    (hrun : b.runNumber = some current) (hother : current ≠ run) :
    b.update kind run = .error (.runNumberMismatch kind current run) := by
  rw [update, hopen, if_neg Bool.false_ne_true, htracks, hwaiting, hrun]
  simp [hother]

/-- A transition of the run in progress is counted, unless it is one begin too many. -/
theorem update_of_inRun (hopen : b.complete = false) (htracks : b.tracks kind = true)
    (hwaiting : b.waiting = false)
    (hrun : ∀ current, b.runNumber = some current → current = run) :
    b.update kind run =
      if kind = b.beginKind ∧ b.expected ≤ b.count kind then .error (.tooManyBegins b.expected run)
      else .ok (settle { b with counts := bump kind b.counts }) := by
  have hadvance : b.update kind run = update.advance b kind run := by
    rw [update, if_neg (by simp [hopen]), if_neg (by simp [htracks]), if_neg (by simp [hwaiting])]
    cases hnumber : b.runNumber with
    | none => rfl
    | some current =>
      dsimp only
      rw [hrun current hnumber, if_neg (by simp)]
  rw [hadvance]
  rfl

theorem update_of_accounted (hopen : b.complete = false) (h : Accounted b kind run b') :
    b.update kind run = .ok b' := by
  have hincomplete : ¬ b.complete = true := by simp [hopen]
  cases h with
  | ignored huntracked => rw [update, if_neg hincomplete, if_pos (by simp [huntracked])]
  | early htracks hwaiting hkind =>
    rw [update, if_neg hincomplete, if_neg (by simp [htracks]), if_pos hwaiting, if_neg hkind]
  | first htracks hwaiting hkind =>
    rw [update, if_neg hincomplete, if_neg (by simp [htracks]), if_pos hwaiting, if_pos hkind]
  | next htracks hwaiting hrun hroom =>
    rw [update_of_inRun hopen htracks hwaiting hrun, if_neg hroom]

theorem update_of_refused (h : Refused b kind run e) : b.update kind run = .error e := by
  cases h with
  | extra hcomplete => exact update_of_complete hcomplete kind run
  | otherRun hopen htracks hwaiting hnumber hother =>
    exact update_of_otherRun hopen htracks hwaiting hnumber hother
  | surplus hopen htracks hwaiting hrun hkind hfull =>
    rw [update_of_inRun hopen htracks hwaiting hrun, if_pos ⟨hkind, hfull⟩]

theorem accounted_of_update (h : b.update kind run = .ok b') :
    b.complete = false ∧ Accounted b kind run b' := by
  rcases refused_or_accounted b kind run with ⟨e, hrefused⟩ | ⟨hopen, b'', haccounted⟩
  · rw [update_of_refused hrefused] at h
    cases h
  · rw [update_of_accounted hopen haccounted] at h
    cases h
    exact ⟨hopen, haccounted⟩

theorem refused_of_update (h : b.update kind run = .error e) : Refused b kind run e := by
  rcases refused_or_accounted b kind run with ⟨e', hrefused⟩ | ⟨hopen, b', haccounted⟩
  · rw [update_of_refused hrefused] at h
    cases h
    exact hrefused
  · rw [update_of_accounted hopen haccounted] at h
    cases h

/-- No transition changes what is left of a barrier when it is reset. -/
theorem reset_of_update (h : b.update kind run = .ok b') : b'.reset = b.reset := by
  obtain ⟨-, h⟩ := accounted_of_update h
  cases h with
  | ignored => rfl
  | early => rfl
  | first => exact reset_eq_of_keys rfl rfl rfl ((keys_bump _ _).trans (keys_cleared b))
  | next => exact reset_eq_of_keys rfl rfl rfl (keys_bump _ _)

end Update

section InPlace

/-- `update` in place, by one assignment after the other. What was assigned before a transition is
    refused would stay. -/
def updateInPlace (kind : RecordKind) (run : UInt32) :
    EStateM TransitionError RunBarrier Unit := do
  if (← get).complete then throw (.extraTransition kind run)
  if (← get).tracks kind then
    if kind = (← get).beginKind ∧ (← get).waiting then
      modify fun b => { b with runNumber := some run }
      modify fun b => { b with counts := b.cleared }
      modify fun b => { b with counts := bump kind b.counts }
    else if !(← get).waiting then
      if let some current := (← get).runNumber then
        if current ≠ run then throw (.runNumberMismatch kind current run)
      if kind = (← get).beginKind ∧ (← get).expected ≤ (← get).count kind then
        throw (.tooManyBegins (← get).expected run)
      modify fun b => { b with counts := bump kind b.counts }
    modify settle

variable {α β : Type} {b b' : RunBarrier} {kind : RecordKind} {run : UInt32} {e : TransitionError}

theorem get_bind_apply (f : RunBarrier → EStateM TransitionError RunBarrier α) (b : RunBarrier) :
    (get >>= f) b = f b b := rfl

theorem throw_bind_apply (e : TransitionError) (f : α → EStateM TransitionError RunBarrier β)
    (b : RunBarrier) :
    ((throw e : EStateM TransitionError RunBarrier α) >>= f) b = .error e b := rfl

/-- Nothing is assigned before a transition is refused. -/
theorem updateInPlace_of_refused (h : Refused b kind run e) :
    updateInPlace kind run b = .error e b := by
  unfold updateInPlace
  rw [get_bind_apply]
  cases h with
  | extra hcomplete =>
    rw [if_pos hcomplete]
    rfl
  | otherRun hopen htracks hwaiting hnumber hother =>
    simp [hopen, get_bind_apply, htracks, hwaiting, hnumber, hother, throw_bind_apply]
  | surplus hopen htracks hwaiting hrun hkind hfull =>
    subst hkind
    cases hnumber : b.runNumber with
    | none => simp [hopen, get_bind_apply, htracks, hwaiting, hnumber, throw_bind_apply, hfull]
    | some current =>
      simp [hopen, get_bind_apply, htracks, hwaiting, hnumber, throw_bind_apply, hfull,
        hrun current hnumber]

theorem updateInPlace_of_accounted (hopen : b.complete = false) (h : Accounted b kind run b') :
    updateInPlace kind run b = .ok () b' := by
  unfold updateInPlace
  simp only [get_bind_apply, hopen, Bool.false_eq_true, if_false]
  cases h with
  | ignored huntracked =>
    simp only [huntracked, Bool.false_eq_true, if_false]
    rfl
  | early htracks hwaiting hkind =>
    simp only [htracks, if_true, hkind, false_and, if_false, get_bind_apply, hwaiting,
      Bool.not_true, Bool.false_eq_true]
    rfl
  | first htracks hwaiting hkind =>
    subst hkind
    simp only [htracks, if_true, get_bind_apply, hwaiting, and_self]
    rfl
  | next htracks hwaiting hrun hroom =>
    generalize hafter : settle { b with counts := bump kind b.counts } = after
    cases hnumber : b.runNumber with
    | none =>
      simp only [htracks, if_true, hwaiting, Bool.false_eq_true, and_false, if_false,
        get_bind_apply, Bool.not_false, hnumber, hroom]
      exact congrArg (EStateM.Result.ok ()) hafter
    | some current =>
      simp only [htracks, if_true, hwaiting, Bool.false_eq_true, and_false, if_false,
        get_bind_apply, Bool.not_false, hnumber, hrun current hnumber, ne_eq, not_true, hroom]
      exact congrArg (EStateM.Result.ok ()) hafter

/-- In place a transition does what it does to a barrier that is given back, and a refusal leaves
    the barrier as it was. -/
theorem updateInPlace_eq (b : RunBarrier) (kind : RecordKind) (run : UInt32) :
    updateInPlace kind run b =
      match b.update kind run with
      | .ok b' => .ok () b'
      | .error e => .error e b := by
  cases hupdate : b.update kind run with
  | error e => exact updateInPlace_of_refused (refused_of_update hupdate)
  | ok b' =>
    obtain ⟨hopen, haccounted⟩ := accounted_of_update hupdate
    exact updateInPlace_of_accounted hopen haccounted

end InPlace

section Follows

variable {n : Nat} {run : UInt32} {seen : List RecordKind} {b : RunBarrier} {kind : RecordKind}

theorem tracks_bump (kind k : RecordKind) (b : RunBarrier) :
    ({ b with counts := bump kind b.counts } : RunBarrier).tracks k = b.tracks k := by
  rw [tracks, tracks, lookup_bump, Option.isSome_map]

/-- Of the kinds that are counted, only the one that was seen is counted further. -/
theorem count_bump {k : RecordKind} (h : b.tracks k = true) :
    ({ b with counts := bump kind b.counts } : RunBarrier).count k =
      b.count k + if k = kind then 1 else 0 := by
  obtain ⟨m, hm⟩ := Option.isSome_iff_exists.1 h
  rw [count, count, lookup_bump, hm]
  simp only [Option.map_some, Option.getD_some]
  split <;> rfl

theorem tracks_ofRunTransitions (n : Nat) (k : RecordKind) :
    (ofRunTransitions n).tracks k = k.isStateChange := by
  cases k <;> rfl

/-- A barrier for the run transitions of `n` producers has counted these transitions of a run,
    the first begin among them. -/
structure Follows (n : Nat) (run : UInt32) (seen : List RecordKind) (b : RunBarrier) : Prop where
  expected : b.expected = n
  beginKind : b.beginKind = .beginRun
  endKind : b.endKind = .endRun
  tracks : ∀ k, b.tracks k = k.isStateChange
  count : ∀ k, k.isStateChange = true → b.count k = seen.count k
  begun : .beginRun ∈ seen
  runNumber : b.runNumber = some run
  complete : b.complete = (seen.count .endRun == n)

/-- Before the first begin, nothing else leaves a trace. -/
theorem update_early (n : Nat) (hkind : kind ≠ .beginRun) (run : UInt32) :
    (ofRunTransitions n).update kind run = .ok (ofRunTransitions n) := by
  by_cases htracks : (ofRunTransitions n).tracks kind = true
  · have hsettle : (ofRunTransitions n).settle = ofRunTransitions n := by
      have hnever : (0 == max n 1) = false := by
        rw [beq_eq_false_iff_ne]
        omega
      show ({ ofRunTransitions n with complete := 0 == max n 1 } : RunBarrier) = _
      rw [hnever]
      rfl
    have hupdate : (ofRunTransitions n).update kind run = .ok (ofRunTransitions n).settle :=
      update_of_accounted rfl (.early htracks rfl hkind)
    rwa [hsettle] at hupdate
  · exact update_of_accounted rfl (.ignored (by simpa using htracks))

/-- The first begin decides which run is followed. -/
theorem update_first (n : Nat) (run : UInt32) :
    ∃ b, (ofRunTransitions n).update .beginRun run = .ok b ∧
      Follows (max n 1) run [.beginRun] b := by
  refine ⟨_, update_of_accounted rfl (.first rfl rfl rfl), rfl, rfl, rfl, ?_, ?_, by simp, rfl,
    rfl⟩
  · intro k
    cases k <;> rfl
  · intro k _
    cases k <;> rfl

namespace Follows

theorem waiting (h : Follows n run seen b) : b.waiting = false := by
  have hpos : 0 < seen.count .beginRun := List.count_pos_iff.2 h.begun
  rw [RunBarrier.waiting, h.beginKind, h.count _ rfl, beq_eq_false_iff_ne]
  omega

theorem complete_eq_false (h : Follows n run seen b) (hopen : seen.count .endRun ≠ n) :
    b.complete = false := by
  rw [h.complete, beq_eq_false_iff_ne]
  exact hopen

/-- A transition of another run is refused. -/
theorem update_otherRun (h : Follows n run seen b) (hopen : seen.count .endRun ≠ n)
    (hkind : kind.isStateChange = true) {other : UInt32} (hother : run ≠ other) :
    b.update kind other = .error (.runNumberMismatch kind run other) :=
  update_of_otherRun (h.complete_eq_false hopen) ((h.tracks kind).trans hkind) h.waiting h.runNumber
    hother

/-- A begin is refused once every producer has begun the run. -/
theorem update_surplus (h : Follows n run seen b) (hopen : seen.count .endRun ≠ n)
    (hfull : n ≤ seen.count .beginRun) :
    b.update .beginRun run = .error (.tooManyBegins n run) := by
  have hrun : ∀ current, b.runNumber = some current → current = run := by
    intro current hcurrent
    rw [h.runNumber] at hcurrent
    exact (Option.some.inj hcurrent).symm
  rw [update_of_inRun (h.complete_eq_false hopen) (h.tracks _) h.waiting hrun, h.beginKind,
    h.expected, h.count _ rfl, if_pos ⟨rfl, hfull⟩]

/-- Any other transition of the run is counted. -/
theorem update_next (h : Follows n run seen b) (hopen : seen.count .endRun ≠ n)
    (hkind : kind.isStateChange = true) (hroom : kind = .beginRun → seen.count .beginRun < n) :
    ∃ b', b.update kind run = .ok b' ∧ Follows n run (seen ++ [kind]) b' := by
  have hrun : ∀ current, b.runNumber = some current → current = run := by
    intro current hcurrent
    rw [h.runNumber] at hcurrent
    exact (Option.some.inj hcurrent).symm
  have hfits : ¬ (kind = b.beginKind ∧ b.expected ≤ b.count kind) := by
    rintro ⟨hbegin, hle⟩
    rw [h.beginKind] at hbegin
    have := hroom hbegin
    rw [h.expected, h.count kind hkind, hbegin] at hle
    omega
  have hcount (k : RecordKind) (hk : k.isStateChange = true) :
      ({ b with counts := bump kind b.counts } : RunBarrier).count k =
        (seen ++ [kind]).count k := by
    rw [count_bump ((h.tracks k).trans hk), h.count k hk, List.count_append, List.count_singleton]
    by_cases hsame : k = kind
    · rw [if_pos hsame, if_pos (by simpa using hsame.symm)]
    · rw [if_neg hsame, if_neg (by simpa using Ne.symm hsame)]
  refine ⟨_, update_of_accounted (h.complete_eq_false hopen)
    (.next ((h.tracks kind).trans hkind) h.waiting hrun hfits), h.expected, h.beginKind, h.endKind,
    fun k => (tracks_bump kind k b).trans (h.tracks k), hcount, ?_, h.runNumber, ?_⟩
  · exact List.mem_append_left _ h.begun
  · have hends := hcount b.endKind (by rw [h.endKind]; rfl)
    show (({ b with counts := bump kind b.counts } : RunBarrier).count b.endKind == b.expected) = _
    rw [hends, h.endKind, h.expected]

end Follows

end Follows

end RunBarrier

end DaqStream
