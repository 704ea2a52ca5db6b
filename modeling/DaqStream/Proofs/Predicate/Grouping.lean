import DaqStream.Predicate.Basic
import DaqStream.Proofs.Grouping

/-!
# Groups of predicates in groups

Every member of a group is asked once, in order, up to the first that says to stop (`Judged`), and
the answers are put together (`Verdict.joint`). Whether something was skipped is all that has to be
handed along between the members, and so groups inside a group make no difference to what is said,
nor to how often a member is asked.
-/

namespace DaqStream

namespace Verdict

/-- What several answers come to. -/
def joint (answers : List Verdict) : Verdict :=
  if .abort ∈ answers then .abort else if .skip ∈ answers then .skip else .proceed

theorem joint_cons_proceed (answers : List Verdict) :
    joint (.proceed :: answers) = joint answers := by
  simp [joint]

theorem joint_cons_skip (answers : List Verdict) :
    joint (.skip :: answers) = if joint answers = .abort then .abort else .skip := by
  by_cases habort : .abort ∈ answers
  · simp [joint, habort]
  · have hjoint : joint answers ≠ .abort := by
      rw [joint, if_neg habort]
      split <;> simp
    rw [if_neg hjoint]
    simp [joint, habort]

end Verdict

namespace Predicate

variable {ω π : Type} [CustomPredicate ω π]

section Judging

/-- Every predicate is asked once, in order. -/
inductive Asked (point : Checkpoint) :
    List (Predicate π) → ω → List Verdict → List (Predicate π) → ω → Prop where
  | nil {w : ω} : Asked point [] w [] [] w
  | cons {p p' : Predicate π} {ps ps' : List (Predicate π)} {answer : Verdict}
      {answers : List Verdict} {w v w' : ω} (head : judge p point w = (answer, p', v))
      (rest : Asked point ps v answers ps' w') :
      Asked point (p :: ps) w (answer :: answers) (p' :: ps') w'

/-- What predicates answer that are asked up to the first that says to stop. -/
inductive Judged (point : Checkpoint) :
    List (Predicate π) → ω → List Verdict → List (Predicate π) → ω → Prop where
  /-- All are asked, and none of them says to stop. -/
  | heard {ps ps' : List (Predicate π)} {answers : List Verdict} {w w' : ω}
      (h : Asked point ps w answers ps' w') (hanswers : .abort ∉ answers) :
      Judged point ps w answers ps' w'
  /-- One says to stop; the predicates after it are left as they are. -/
  | stopped {before before' after : List (Predicate π)} {p p' : Predicate π}
      {answers : List Verdict} {w v w' : ω} (hbefore : Asked point before w answers before' v)
      (hanswers : .abort ∉ answers) (h : judge p point v = (.abort, p', w')) :
      Judged point (before ++ p :: after) w (answers ++ [.abort]) (before' ++ p' :: after) w'

variable {point : Checkpoint} {p p' : Predicate π} {ps ps' : List (Predicate π)}
  {answer verdict : Verdict} {answers : List Verdict} {w v w' : ω}

theorem judgeAll_cons_of_abort (h : judge p point w = (.abort, p', w')) (ps : List (Predicate π)) :
    judgeAll (p :: ps) point w = (.abort, p' :: ps, w') := by
  rw [judgeAll, h]

theorem judgeAll_cons_of_ne (h : judge p point w = (answer, p', v)) (hne : answer ≠ .abort)
    (hrest : judgeAll ps point v = (.joint answers, ps', w')) :
    judgeAll (p :: ps) point w = (.joint (answer :: answers), p' :: ps', w') := by
  rw [judgeAll, h]
  cases answer with
  | abort => exact absurd rfl hne
  | skip =>
    dsimp only
    rw [hrest, Verdict.joint_cons_skip]
    cases Verdict.joint answers <;> rfl
  | proceed =>
    dsimp only
    rw [hrest, Verdict.joint_cons_proceed]

theorem Asked.judgeAll_append (h : Asked point ps w answers ps' v) (hanswers : .abort ∉ answers)
    {qs qs' : List (Predicate π)} {more : List Verdict}
    (hrest : judgeAll qs point v = (.joint more, qs', w')) :
    judgeAll (ps ++ qs) point w = (.joint (answers ++ more), ps' ++ qs', w') := by
  induction h with
  | nil => exact hrest
  | cons head _ ih =>
    obtain ⟨hne, hanswers⟩ := not_or.1 (mt List.mem_cons.2 hanswers)
    exact judgeAll_cons_of_ne head (Ne.symm hne) (ih hanswers hrest)

theorem Judged.judgeAll (h : Judged point ps w answers ps' w') :
    judgeAll ps point w = (.joint answers, ps', w') := by
  cases h with
  | heard h hanswers =>
    have hnil : Predicate.judgeAll ([] : List (Predicate π)) point w' = (.joint [], [], w') := rfl
    simpa using h.judgeAll_append hanswers hnil
  | stopped hbefore hanswers h =>
    exact hbefore.judgeAll_append hanswers (judgeAll_cons_of_abort h _)

theorem Judged.cons (head : judge p point w = (answer, p', v)) (hne : answer ≠ .abort)
    (h : Judged point ps v answers ps' w') :
    Judged point (p :: ps) w (answer :: answers) (p' :: ps') w' := by
  have hcons {answers : List Verdict} (hanswers : .abort ∉ answers) :
      .abort ∉ answer :: answers :=
    mt List.mem_cons.1 (not_or.2 ⟨Ne.symm hne, hanswers⟩)
  cases h with
  | heard h hanswers => exact .heard (.cons head h) (hcons hanswers)
  | stopped hbefore hanswers h => exact .stopped (.cons head hbefore) (hcons hanswers) h

theorem exists_judged (point : Checkpoint) (ps : List (Predicate π)) (w : ω) :
    ∃ (answers : List Verdict) (ps' : List (Predicate π)) (w' : ω),
      Judged point ps w answers ps' w' := by
  induction ps generalizing w with
  | nil => exact ⟨[], [], w, .heard .nil List.not_mem_nil⟩
  | cons p ps ih =>
    rcases hhead : judge p point w with ⟨answer, p', v⟩
    by_cases hne : answer = .abort
    · subst hne
      exact ⟨[.abort], p' :: ps, v, .stopped .nil List.not_mem_nil hhead⟩
    · obtain ⟨answers, ps', w', h⟩ := ih v
      exact ⟨answer :: answers, p' :: ps', w', h.cons hhead hne⟩

theorem judgeAll_eq_iff :
    judgeAll ps point w = (verdict, ps', w') ↔
      ∃ answers, Judged point ps w answers ps' w' ∧ verdict = .joint answers := by
  constructor
  · intro h
    obtain ⟨answers, ps'', w'', hjudged⟩ := exists_judged point ps w
    rw [hjudged.judgeAll] at h
    cases h
    exact ⟨answers, hjudged, rfl⟩
  · rintro ⟨answers, hjudged, rfl⟩
    exact hjudged.judgeAll

theorem judge_group_eq_iff :
    judge (group ps) point w = (verdict, group ps', w') ↔
      ∃ answers, Judged point ps w answers ps' w' ∧ verdict = .joint answers := by
  rw [← judgeAll_eq_iff, judge]
  rcases judgeAll ps point w with ⟨verdict', qs, v⟩
  simp

end Judging

section PassAlong

/-- Whether something was skipped, after one more answer, if the asking goes on. -/
def skippedBy (skipped : Bool) : Verdict → Except Unit Bool
  | .abort => .error ()
  | .skip => .ok true
  | .proceed => .ok skipped

/-- What is said after all were asked, or one said to stop. -/
def verdictOf : Except Unit Bool → Verdict
  | .error () => .abort
  | .ok true => .skip
  | .ok false => .proceed

theorem verdictOf_skippedBy (verdict : Verdict) : verdictOf (skippedBy false verdict) = verdict := by
  cases verdict <;> rfl

/-- A predicate as a place that it is handed along whether something was skipped. -/
def judgeOn (point : Checkpoint) (p : Predicate π) (skipped : Bool) (w : ω) :
    Except Unit Bool × Predicate π × ω :=
  match judge p point w with
  | (verdict, p', w') => (skippedBy skipped verdict, p', w')

/-- A predicate as a place that nothing is handed along. -/
def resetOn (p : Predicate π) (_ : Unit) (w : ω) : Except Empty Unit × Predicate π × ω :=
  (.ok (), reset p w)

theorem passAlong_judgeOn (point : Checkpoint) (ps : List (Predicate π)) (skipped : Bool) (w : ω) :
    passAlong (judgeOn point) ps skipped w =
      match judgeAll ps point w with
      | (verdict, ps', w') => (skippedBy skipped verdict, ps', w') := by
  induction ps generalizing skipped w with
  | nil => rfl
  | cons p ps ih =>
    rw [passAlong, judgeAll, judgeOn]
    rcases judge p point w with ⟨_ | _ | _, p', v⟩
    · dsimp only [skippedBy]
      rw [ih]
      rfl
    · dsimp only [skippedBy]
      rw [ih]
      rcases judgeAll ps point v with ⟨_ | _ | _, ps', w'⟩ <;> rfl
    · rfl

theorem judgeAll_eq_passAlong (point : Checkpoint) (ps : List (Predicate π)) (w : ω) :
    judgeAll ps point w =
      match passAlong (judgeOn point) ps false w with
      | (out, ps', w') => (verdictOf out, ps', w') := by
  rw [passAlong_judgeOn]
  dsimp only
  rw [verdictOf_skippedBy]

theorem judgeOn_group (point : Checkpoint) (ps : List (Predicate π)) (skipped : Bool) (w : ω) :
    judgeOn point (group ps) skipped w =
      match passAlong (judgeOn point) ps skipped w with
      | (out, ps', w') => (out, group ps', w') := by
  rw [judgeOn, judge, passAlong_judgeOn]

theorem passAlong_resetOn (ps : List (Predicate π)) (i : Unit) (w : ω) :
    passAlong resetOn ps i w = (.ok (), resetAll ps w) := by
  induction ps generalizing w with
  | nil => rfl
  | cons p ps ih =>
    rw [passAlong, resetOn, resetAll]
    dsimp only
    rw [ih]

theorem resetOn_group (ps : List (Predicate π)) (i : Unit) (w : ω) :
    resetOn (group ps) i w =
      match passAlong resetOn ps i w with
      | (out, ps', w') => (out, group ps', w') := by
  rw [resetOn, reset, passAlong_resetOn]

end PassAlong

section Requests

/-- What is asked of a predicate in the course of its runs. -/
inductive Request where
  | judge (point : Checkpoint)
  | reset

/-- One request, what is said if there is something to be judged, and the predicate as it is
    afterwards. -/
def call (p : Predicate π) : Request → ω → Option Verdict × Predicate π × ω
  | .judge point, w => (some (judge p point w).1, (judge p point w).2)
  | .reset, w => (none, reset p w)

theorem seesThrough_call (q : Request) :
    SeesThrough group (fun (p : Predicate π) (w : ω) => call p q w) := by
  cases q with
  | judge point =>
    have hcall (ps : List (Predicate π)) (w : ω) :
        call (group ps) (.judge point) w =
          match passAlong (judgeOn point) ps false w with
          | (out, ps', w') => (some (verdictOf out), group ps', w') := by
      rw [call, judge, judgeAll_eq_passAlong]
    exact seesThrough_of_passAlong (some ∘ verdictOf) (judgeOn_group point) hcall
  | reset =>
    have hcall (ps : List (Predicate π)) (w : ω) :
        call (group ps) .reset w =
          match passAlong resetOn ps () w with
          | (_, ps', w') => (none, group ps', w') := by
      rw [call, reset, passAlong_resetOn]
    exact seesThrough_of_passAlong (fun _ => none) resetOn_group hcall

/-- Groups inside a group make no difference: whatever is asked of it, the same is said and the
    same members remain, in the same groups. What a group says is what its members say that are
    asked up to the first that says to stop. -/
theorem group_wrapped_and_judge_iff :
    (∀ (g : Grouping (Predicate π)) (requests : List Request) (w : ω),
      ∃ (replies : List (Option Verdict)) (g' : Grouping (Predicate π)) (w' : ω),
        g'.shape = g.shape ∧
        calls call (group g.items) requests w = (replies, group g'.items, w') ∧
        calls call (group (g.wrapped group)) requests w = (replies, group (g'.wrapped group), w')) ∧
    (∀ (point : Checkpoint) (ps ps' : List (Predicate π)) (w w' : ω) (verdict : Verdict),
      judge (group ps) point w = (verdict, group ps', w') ↔
        ∃ answers, Judged point ps w answers ps' w' ∧ verdict = .joint answers) :=
  ⟨fun g requests w => seesThrough_calls seesThrough_call requests g w,
    fun _ _ _ _ _ _ => judge_group_eq_iff⟩

end Requests

end Predicate

end DaqStream
