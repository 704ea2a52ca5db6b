import DaqStream.Predicate.Basic
import DaqStream.Record.Basic

/-!
# Which records an exclusion, a sampling and a window let through

The three predicates that are not the caller's own may stand in any order, because each of
them counts every record that is read, whatever the others say of it (`judgeAll_at`). Together
they keep the records of `Selection.kept`.
-/

namespace DaqStream

namespace Predicate

variable {ω π : Type} [CustomPredicate ω π] {ps : List (Predicate π)} {point : Checkpoint} {w : ω}

/-- Predicates that share nothing and do not stop the run all have their say: any of them can
    skip the record, and each goes on counting. -/
theorem judgeAll_of_forall (hshared : ∀ p ∈ ps, (p.judge point w).2.2 = w)
    (hgoes : ∀ p ∈ ps, (p.judge point w).1 ≠ .abort) :
    judgeAll ps point w =
      (if ∃ p ∈ ps, (p.judge point w).1 = .skip then .skip else .proceed,
        ps.map fun p => (p.judge point w).2.1, w) := by
  induction ps with
  | nil => simp [judgeAll]
  | cons p ps ih =>
    have hrest := ih (fun q hq => hshared q (List.mem_cons_of_mem _ hq))
      (fun q hq => hgoes q (List.mem_cons_of_mem _ hq))
    have hp := hshared p List.mem_cons_self
    have hgo := hgoes p List.mem_cons_self
    unfold judgeAll
    rcases hjudge : p.judge point w with ⟨verdict, p', w'⟩
    rw [hjudge] at hp hgo
    obtain rfl : w = w' := hp.symm
    cases verdict with
    | abort => exact absurd rfl hgo
    | proceed => simp [hrest, hjudge]
    | skip =>
      by_cases hskip : ∃ q ∈ ps, (q.judge point w).1 = .skip
      · simp [hrest, hjudge, hskip]
      · simp [hrest, hjudge, hskip]

/-- Of predicates that share nothing, one that stops the run decides. -/
theorem judgeAll_of_abort (hshared : ∀ p ∈ ps, (p.judge point w).2.2 = w)
    (hstops : ∃ p ∈ ps, (p.judge point w).1 = .abort) :
    ∃ ps', judgeAll ps point w = (.abort, ps', w) := by
  induction ps with
  | nil => simp at hstops
  | cons p ps ih =>
    have hp := hshared p List.mem_cons_self
    unfold judgeAll
    rcases hjudge : p.judge point w with ⟨verdict, p', w'⟩
    rw [hjudge] at hp
    obtain rfl : w = w' := hp.symm
    cases verdict with
    | abort => exact ⟨_, rfl⟩
    | proceed =>
      have hlater : ∃ q ∈ ps, (q.judge point w).1 = .abort := by
        simpa [hjudge] using hstops
      obtain ⟨ps', hps⟩ := ih (fun q hq => hshared q (List.mem_cons_of_mem _ hq)) hlater
      exact ⟨p' :: ps', by simp only [hps]⟩
    | skip =>
      have hlater : ∃ q ∈ ps, (q.judge point w).1 = .abort := by
        simpa [hjudge] using hstops
      obtain ⟨ps', hps⟩ := ih (fun q hq => hshared q (List.mem_cons_of_mem _ hq)) hlater
      exact ⟨p' :: ps', by simp only [hps]⟩

theorem resetAll_of_forall (hshared : ∀ p ∈ ps, (p.reset w).2 = w) :
    resetAll ps w = (ps.map fun p => (p.reset w).1, w) := by
  induction ps with
  | nil => rfl
  | cons p ps ih =>
    have hp := hshared p List.mem_cons_self
    unfold resetAll
    rcases hreset : p.reset w with ⟨p', w'⟩
    rw [hreset] at hp
    obtain rfl : w = w' := hp.symm
    simp only [List.map_cons, hreset, ih fun q hq => hshared q (List.mem_cons_of_mem _ hq)]

end Predicate

namespace Sampling

/-- How often a kind was seen, in the counts themselves. -/
theorem lookup_bump (kind k : RecordKind) (seen : List (RecordKind × Nat)) :
    ((bump kind seen).lookup k).getD 0 =
      (seen.lookup k).getD 0 + if kind = k then 1 else 0 := by
  induction seen with
  | nil =>
    by_cases hk : kind = k
    · subst hk
      simp [bump]
    · have hne : (k == kind) = false := beq_eq_false_iff_ne.2 (Ne.symm hk)
      simp [bump, List.lookup_cons, hne, hk]
  | cons entry seen ih =>
    obtain ⟨key, n⟩ := entry
    by_cases hk : k = key
    · subst hk
      by_cases hkey : k = kind
      · subst hkey
        simp [bump]
      · simp [bump, hkey, Ne.symm hkey]
    · have hne : (k == key) = false := beq_eq_false_iff_ne.2 hk
      by_cases hkey : key = kind
      · subst hkey
        simp [bump, List.lookup_cons, hne, Ne.symm hk]
      · simpa [bump, hkey, List.lookup_cons, hne] using ih

/-- `s'` is what has become of the sampling `s` when these records have been read. -/
structure Counted (s : Sampling) (rs : List Record) (s' : Sampling) : Prop where
  kinds : s'.kinds = s.kinds
  every : s'.every = s.every
  count : ∀ k ∈ s.kinds, s'.count k = rs.countP fun r => r.kind = k

theorem counted_reset (s : Sampling) : Counted s [] s.reset :=
  ⟨rfl, rfl, fun _ _ => rfl⟩

theorem Counted.judge {s s' : Sampling} {rs : List Record} (h : Counted s rs s') (r : Record) :
    Counted s (rs ++ [r]) (s'.judge r.kind).2 := by
  unfold Sampling.judge
  by_cases hmem : r.kind ∈ s'.kinds
  · rw [if_pos hmem]
    refine ⟨h.kinds, h.every, ?_⟩
    intro k hk
    have hold := h.count k hk
    rw [List.countP_append, List.countP_singleton, ← hold]
    show ((bump r.kind s'.seen).lookup k).getD 0 = (s'.seen.lookup k).getD 0 + _
    rw [lookup_bump]
    simp
  · rw [if_neg hmem]
    refine ⟨h.kinds, h.every, ?_⟩
    intro k hk
    have hne : r.kind ≠ k := by
      intro heq
      rw [heq, h.kinds] at hmem
      exact hmem hk
    rw [List.countP_append, ← h.count k hk, List.countP_singleton]
    simp [hne]

/-- A sampling skips a record of its kinds unless the records of that kind before it are a
    multiple of the period. -/
theorem Counted.judge_eq {s s' : Sampling} {rs : List Record} (h : Counted s rs s')
    (r : Record) :
    (s'.judge r.kind).1 =
      if r.kind ∉ s.kinds ∨ max s.every 1 ∣ rs.countP (fun r' => r'.kind = r.kind) then
        .proceed else .skip := by
  unfold Sampling.judge
  by_cases hmem : r.kind ∈ s.kinds
  · rw [if_pos (h.kinds ▸ hmem), h.every, h.count _ hmem]
    simp [hmem, Nat.dvd_iff_mod_eq_zero]
  · rw [if_neg (h.kinds ▸ hmem), if_pos (.inl hmem)]

end Sampling

namespace CountWindow

/-- A window as it is when `n` records have been read, of which none stopped the run. -/
def after (c : CountWindow) (n : Nat) : CountWindow where
  toSkip := c.toSkip
  toProcess := c.toProcess
  skipped := min c.toSkip n
  processed := if c.toProcess = 0 then 0 else n - c.toSkip

theorem reset_eq_after (c : CountWindow) : c.reset = c.after 0 := by
  simp [reset, after]

/-- Whether the window stops the run at a record that `n` others were read before. -/
def Closes (c : CountWindow) (n : Nat) : Prop :=
  0 < c.toProcess ∧ c.toSkip + c.toProcess ≤ n

theorem judge_after_of_closes {c : CountWindow} {n : Nat} (h : c.Closes n) :
    ((c.after n).judge).1 = .abort := by
  rcases h with ⟨hpos, hle⟩
  have hskipped : ¬ min c.toSkip n < c.toSkip := by omega
  have hprocess : c.toProcess ≠ 0 := by omega
  have hfull : ¬ n - c.toSkip < c.toProcess := by omega
  simp [judge, after, hskipped, hprocess, hfull]

theorem judge_after {c : CountWindow} {n : Nat} (h : ¬ c.Closes n) :
    (c.after n).judge = (if c.toSkip ≤ n then .proceed else .skip, c.after (n + 1)) := by
  have hopen : c.toProcess = 0 ∨ n < c.toSkip + c.toProcess := by
    unfold Closes at h
    omega
  by_cases hskip : c.toSkip ≤ n
  · have hskipped : min c.toSkip n = c.toSkip := Nat.min_eq_left hskip
    have hstill : min c.toSkip (n + 1) = c.toSkip := Nat.min_eq_left (Nat.le_succ_of_le hskip)
    by_cases hall : c.toProcess = 0
    · simp only [judge, after, hskip, hskipped, hstill, hall, Nat.lt_irrefl, if_true, if_false]
    · have hroom : n - c.toSkip < c.toProcess := by omega
      have hnext : n - c.toSkip + 1 = n + 1 - c.toSkip := by omega
      simp only [judge, after, hskip, hskipped, hstill, hall, hroom, hnext, Nat.lt_irrefl, if_true,
        if_false]
  · have hlt : n < c.toSkip := Nat.lt_of_not_le hskip
    have hskipped : min c.toSkip n = n := Nat.min_eq_right (Nat.le_of_lt hlt)
    have hmore : min c.toSkip (n + 1) = n + 1 := Nat.min_eq_right hlt
    have hnone : n - c.toSkip = 0 := by omega
    have hstill : n + 1 - c.toSkip = 0 := by omega
    simp only [judge, after, hskip, hlt, hskipped, hmore, hnone, hstill, if_true, if_false]

end CountWindow

/-- What three predicates select: the kinds that are left out, the kinds that are thinned out
    and how much, and the window. -/
structure Selection where
  excluded : List RecordKind
  sampling : Sampling
  window : CountWindow

namespace Selection

/-- The three predicates, in one of the six orders in which they can stand. -/
def predicates (π : Type) (c : Selection) : List (Predicate π) :=
  [.exclude c.excluded, .sample c.sampling, .countWindow c.window]

/-- Whether the record at a position is kept. -/
def Keeps (c : Selection) (rs : List Record) (i : Nat) (r : Record) : Prop :=
  c.window.toSkip ≤ i ∧ (c.window.toProcess = 0 ∨ i < c.window.toSkip + c.window.toProcess) ∧
    r.kind ∉ c.excluded ∧
    (r.kind ∉ c.sampling.kinds ∨
      max c.sampling.every 1 ∣ (rs.take i).countP fun r' => r'.kind = r.kind)

instance (c : Selection) (rs : List Record) (i : Nat) (r : Record) : Decidable (c.Keeps rs i r) :=
  inferInstanceAs (Decidable (_ ∧ _ ∧ _ ∧ _))

/-- The records that are kept of the first `n`. -/
def keptOf (c : Selection) (rs : List Record) (n : Nat) : List Record :=
  ((rs.zipIdx.take n).filter fun x => c.Keeps rs x.2 x.1).map Prod.fst

/-- The records that are kept. -/
def kept (c : Selection) (rs : List Record) : List Record :=
  (rs.zipIdx.filter fun x => c.Keeps rs x.2 x.1).map Prod.fst

/-- How many records are read: one more than the window has room for, or all. -/
def reads (c : Selection) (rs : List Record) : Nat :=
  if c.window.toProcess = 0 then rs.length
  else min rs.length (c.window.toSkip + c.window.toProcess + 1)

variable {c : Selection} {rs : List Record} {i n : Nat} {r : Record}

theorem keptOf_succ (hr : rs[i]? = some r) :
    c.keptOf rs (i + 1) = c.keptOf rs i ++ if c.Keeps rs i r then [r] else [] := by
  have hzip : rs.zipIdx[i]? = some (r, i) := by
    rw [List.getElem?_zipIdx, hr]
    simp
  unfold keptOf
  rw [List.take_add_one, hzip, List.filter_append, List.map_append]
  by_cases hkeeps : c.Keeps rs i r
  · simp [hkeeps]
  · simp [hkeeps]

/-- Nothing is kept where the window has closed, nor behind the end. -/
theorem keptOf_eq_kept (h : rs.length ≤ n ∨ c.window.Closes n) : c.keptOf rs n = c.kept rs := by
  have hdrop : (rs.zipIdx.drop n).filter (fun x => decide (c.Keeps rs x.2 x.1)) = [] := by
    apply List.filter_eq_nil_iff.2
    intro x hx
    obtain ⟨j, hj⟩ := List.mem_iff_getElem?.1 hx
    rw [List.getElem?_drop, List.getElem?_zipIdx] at hj
    obtain ⟨r, hr, hpair⟩ := Option.map_eq_some_iff.1 hj
    obtain ⟨hlt, -⟩ := List.getElem?_eq_some_iff.1 hr
    cases hpair
    intro hkeeps
    obtain ⟨-, hroom, -, -⟩ := of_decide_eq_true hkeeps
    dsimp only at hroom
    rcases h with hlength | ⟨hpos, hfull⟩
    · omega
    · omega
  rw [keptOf, kept, ← List.append_nil (List.filter _ (List.take _ _)), ← hdrop,
    ← List.filter_append, List.take_append_drop]

section Judging

variable {ω π : Type} [CustomPredicate ω π] {ps : List (Predicate π)} {w : ω}

/-- The predicates of a selection when the first `n` records have been read and did not stop
    the run. -/
def Stands (c : Selection) (rs : List Record) (n : Nat) (ps : List (Predicate π)) : Prop :=
  ∃ s', c.sampling.Counted (rs.take n) s' ∧
    ps.Perm [.exclude c.excluded, .sample s', .countWindow (c.window.after n)]

theorem stands_resetAll (hps : ps.Perm (c.predicates π)) (rs : List Record) (w : ω) :
    ∃ ps', Predicate.resetAll ps w = (ps', w) ∧ c.Stands rs 0 ps' := by
  have hshared : ∀ p ∈ ps, (p.reset w).2 = w := by
    intro p hp
    rw [hps.mem_iff] at hp
    simp only [predicates, List.mem_cons, List.not_mem_nil, or_false] at hp
    rcases hp with rfl | rfl | rfl <;> rfl
  refine ⟨_, Predicate.resetAll_of_forall hshared, c.sampling.reset, c.sampling.counted_reset, ?_⟩
  rw [← CountWindow.reset_eq_after]
  exact hps.map fun p => (p.reset w).1

/-- Only a record that was read is judged. -/
theorem Stands.judgeAll_of_ne {point : Checkpoint} (h : c.Stands rs n ps)
    (hpoint : ∀ kind, point ≠ .postInput kind) (w : ω) :
    Predicate.judgeAll ps point w = (.proceed, ps, w) := by
  rcases h with ⟨s', -, hps⟩
  have hjudge : ∀ p ∈ ps, p.judge point w = (.proceed, p, w) := by
    intro p hp
    rw [hps.mem_iff] at hp
    simp only [List.mem_cons, List.not_mem_nil, or_false] at hp
    cases point with
    | postInput kind => exact absurd rfl (hpoint kind)
    | _ => rcases hp with rfl | rfl | rfl <;> rfl
  have hall := Predicate.judgeAll_of_forall (fun p hp => by rw [hjudge p hp])
    (fun p hp => by rw [hjudge p hp]; simp)
  have hnone : ¬ ∃ p ∈ ps, (p.judge point w).1 = .skip := by
    intro hskip
    obtain ⟨p, hp, hverdict⟩ := hskip
    rw [hjudge p hp] at hverdict
    cases hverdict
  have hsame : (ps.map fun p => (p.judge point w).2.1) = ps := by
    rw [List.map_congr_left (g := id) fun p hp => by rw [hjudge p hp]; rfl, List.map_id]
  rw [hall, if_neg hnone, hsame]

theorem Stands.judgeAll_of_closes (h : c.Stands rs n ps) (hcloses : c.window.Closes n)
    (kind : RecordKind) (w : ω) :
    ∃ ps', Predicate.judgeAll ps (.postInput kind) w = (.abort, ps', w) := by
  rcases h with ⟨s', -, hps⟩
  apply Predicate.judgeAll_of_abort
  · intro p hp
    rw [hps.mem_iff] at hp
    simp only [List.mem_cons, List.not_mem_nil, or_false] at hp
    rcases hp with rfl | rfl | rfl <;> rfl
  · refine ⟨.countWindow (c.window.after n), hps.mem_iff.2 (by simp), ?_⟩
    exact CountWindow.judge_after_of_closes hcloses

/-- Each of the three predicates has its say, in whatever order, and goes on counting. -/
theorem Stands.judgeAll (h : c.Stands rs n ps) (hopen : ¬ c.window.Closes n)
    (hr : rs[n]? = some r) (w : ω) :
    ∃ ps', Predicate.judgeAll ps (.postInput r.kind) w =
        (if c.Keeps rs n r then .proceed else .skip, ps', w) ∧
      c.Stands rs (n + 1) ps' := by
  rcases h with ⟨s', hcounted, hps⟩
  have hexclude : (Predicate.exclude c.excluded : Predicate π).judge (.postInput r.kind) w =
      (if r.kind ∈ c.excluded then .skip else .proceed, .exclude c.excluded, w) := rfl
  have hsample : (Predicate.sample s' : Predicate π).judge (.postInput r.kind) w =
      ((s'.judge r.kind).1, .sample (s'.judge r.kind).2, w) := rfl
  have hwindow : (Predicate.countWindow (c.window.after n) : Predicate π).judge
      (.postInput r.kind) w = (if c.window.toSkip ≤ n then .proceed else .skip,
        .countWindow (c.window.after (n + 1)), w) := by
    show ((c.window.after n).judge.1, Predicate.countWindow (c.window.after n).judge.2, w) = _
    rw [CountWindow.judge_after hopen]
  rw [hcounted.judge_eq r] at hsample
  have hmem : ∀ p ∈ ps, p = .exclude c.excluded ∨ p = .sample s' ∨
      p = .countWindow (c.window.after n) := by
    intro p hp
    rw [hps.mem_iff] at hp
    simpa using hp
  have hshared : ∀ p ∈ ps, (p.judge (.postInput r.kind) w).2.2 = w := by
    intro p hp
    rcases hmem p hp with rfl | rfl | rfl <;> rfl
  have hgoes : ∀ p ∈ ps, (p.judge (.postInput r.kind) w).1 ≠ .abort := by
    intro p hp
    rcases hmem p hp with rfl | rfl | rfl
    · rw [hexclude]
      dsimp only
      split <;> simp
    · rw [hsample]
      dsimp only
      split <;> simp
    · rw [hwindow]
      dsimp only
      split <;> simp
  have hskip : (∃ p ∈ ps, (p.judge (.postInput r.kind) w).1 = .skip) ↔ ¬ c.Keeps rs n r := by
    have hroom : c.window.toProcess = 0 ∨ n < c.window.toSkip + c.window.toProcess := by
      unfold CountWindow.Closes at hopen
      omega
    simp only [hps.mem_iff, List.mem_cons, List.not_mem_nil, or_false, exists_eq_or_imp,
      exists_eq_left, hexclude, hsample, hwindow]
    unfold Keeps
    by_cases hexcluded : r.kind ∈ c.excluded
    · simp [hexcluded]
    · by_cases hlate : c.window.toSkip ≤ n
      · simp [hexcluded, hlate, hroom]
      · simp [hexcluded, hlate]
  have hjudge := Predicate.judgeAll_of_forall hshared hgoes
  refine ⟨ps.map fun p => (p.judge (.postInput r.kind) w).2.1, ?_, (s'.judge r.kind).2, ?_, ?_⟩
  · rw [hjudge]
    by_cases hkeeps : c.Keeps rs n r
    · rw [if_pos hkeeps, if_neg fun hskips => hskip.1 hskips hkeeps]
    · rw [if_neg hkeeps, if_pos (hskip.2 hkeeps)]
  · rw [List.take_add_one, hr]
    exact hcounted.judge r
  · have hmap := hps.map fun p => (p.judge (.postInput r.kind) w).2.1
    simpa only [List.map_cons, List.map_nil, hexclude, hsample, hwindow] using hmap

end Judging

end Selection

end DaqStream
