import Mathlib.Logic.Basic
import Mathlib.Tactic.ByContra
import DaqStream.Filter.Basic
import DaqStream.Proofs.Run.Barrier

/-!
# One run in a stream of records

A barrier in front of a stream lets through the stretch that begins with the first begin
(`stretch`) and stops where the transitions since then make it stop: at the last end of the
run (`lastEnd`), or where they contradict each other (`contradiction`). These positions are
read off the records alone. `Stands` says what the barrier has counted when it gets to a
position; what it decides there is to drop the record (`Stands.handle_before`), to fail
(`Stands.handle_contradiction`) or to pass it on (`Stands.passesOn`).
-/

namespace DaqStream

namespace Record

/-- The run transition that a record is, and of which run. -/
def transition? (r : Record) : Option (RecordKind × UInt32) :=
  match r.body with
  | .stateChange change =>
    if change.kind.isStateChange then some (change.kind, change.runNumber) else none
  | _ => none

theorem transition?_eq_some {r : Record} {kind : RecordKind} {run : UInt32} :
    r.transition? = some (kind, run) ↔
      kind.isStateChange = true ∧ r.kind = kind ∧ r.runNumber? = some run := by
  unfold transition? Record.kind runNumber?
  cases r.body with
  | stateChange change =>
    dsimp only [Body.kind]
    by_cases htracked : change.kind.isStateChange = true
    · rw [if_pos htracked, Option.some.injEq, Prod.mk.injEq, Option.some.injEq]
      constructor
      · rintro ⟨rfl, rfl⟩
        exact ⟨htracked, rfl, rfl⟩
      · rintro ⟨-, rfl, rfl⟩
        exact ⟨rfl, rfl⟩
    · rw [if_neg htracked]
      constructor
      · intro h
        cases h
      · rintro ⟨hkind, rfl, -⟩
        exact absurd hkind htracked
  | _ => simp

/-- The kind of run transition that a record is. -/
def transitionKind? (r : Record) : Option RecordKind := r.transition?.map Prod.fst

theorem transitionKind?_eq_some {r : Record} {kind : RecordKind} :
    r.transitionKind? = some kind ↔ ∃ run, r.transition? = some (kind, run) := by
  rw [transitionKind?, Option.map_eq_some_iff]
  constructor
  · rintro ⟨⟨k, run⟩, h, rfl⟩
    exact ⟨run, h⟩
  · rintro ⟨run, h⟩
    exact ⟨_, h, rfl⟩

end Record

/-- The first position with a property that may depend on the position; the length of the list
    if there is none. -/
def firstIndex {α : Type} (l : List α) (P : Nat → α → Prop) [∀ j x, Decidable (P j x)] : Nat :=
  l.zipIdx.findIdx fun c => decide (P c.2 c.1)

section FirstIndex

variable {α : Type} {l : List α} {P : Nat → α → Prop} [∀ j x, Decidable (P j x)] {x : α} {j : Nat}

theorem firstIndex_le_length (l : List α) : firstIndex l P ≤ l.length := by
  have h : firstIndex l P ≤ l.zipIdx.length := List.findIdx_le_length
  rwa [List.length_zipIdx] at h

/-- A search that has come this far ends here if and only if the property holds here. -/
theorem firstIndex_eq_iff (hx : l[j]? = some x) (hj : j ≤ firstIndex l P) :
    firstIndex l P = j ↔ P j x := by
  obtain ⟨hlt, rfl⟩ := List.getElem?_eq_some_iff.1 hx
  have hlt' : j < l.zipIdx.length := by rwa [List.length_zipIdx]
  have hitem : l.zipIdx[j] = (l[j], j) := by
    rw [List.getElem_zipIdx, Nat.zero_add]
  rw [firstIndex, List.findIdx_eq hlt', hitem, decide_eq_true_eq]
  constructor
  · exact fun h => h.1
  · intro hP
    exact ⟨hP, fun k hk => by simpa using List.not_of_lt_findIdx (Nat.lt_of_lt_of_le hk hj)⟩

end FirstIndex

namespace OneRun

section Positions

variable (rs : List Record)

/-- Where the run begins. -/
def firstBegin : Nat := firstIndex rs fun _ r => r.transitionKind? = some .beginRun

/-- Where something failed before the records got here. -/
def firstAbnormal : Nat := firstIndex rs fun _ r => r.kind = .abnormalEnd

/-- The records from the first begin up to a position, without the one at the position. -/
def stretch (j : Nat) : List Record := (rs.take j).drop (firstBegin rs)

/-- The run that is begun first. -/
def run? : Option UInt32 := rs[firstBegin rs]?.bind Record.runNumber?

/-- The kinds of the transitions among these records. -/
def transitionKinds (j : Nat) : List RecordKind := (stretch rs j).filterMap Record.transitionKind?

/-- Where the `m`-th end of the run is. -/
def lastEnd (m : Nat) : Nat := firstIndex rs fun j r =>
  firstBegin rs ≤ j ∧ r.transitionKind? = some .endRun ∧
    (transitionKinds rs (j + 1)).count .endRun = m

/-- Where a transition is of another run, or is one begin more than `m`. -/
def contradiction (m : Nat) : Nat := firstIndex rs fun j r =>
  firstBegin rs < j ∧ ∃ t ∈ r.transition?, run? rs ≠ some t.2 ∨
    t.1 = .beginRun ∧ (transitionKinds rs (j + 1)).count .beginRun = m + 1

end Positions

section Stretch

variable {rs : List Record} {r : Record} {j : Nat}

theorem stretch_of_le (h : j ≤ firstBegin rs) : stretch rs j = [] := by
  rw [stretch, List.drop_eq_nil_iff, List.length_take]
  omega

theorem stretch_succ (hr : rs[j]? = some r) (h : firstBegin rs ≤ j) :
    stretch rs (j + 1) = stretch rs j ++ [r] := by
  obtain ⟨hlt, -⟩ := List.getElem?_eq_some_iff.1 hr
  have hlength : firstBegin rs ≤ (rs.take j).length := by
    rw [List.length_take]
    omega
  rw [stretch, stretch, List.take_add_one, hr, List.drop_append_of_le_length hlength]
  rfl

/-- With the record at a position, the stretch begins there at the latest. -/
theorem stretch_concat (hr : rs[j]? = some r) :
    stretch rs j ++ [r] = (rs.take (j + 1)).drop (min (firstBegin rs) j) := by
  by_cases h : firstBegin rs ≤ j
  · rw [Nat.min_eq_left h, ← stretch_succ hr h]
    rfl
  · have hj := Nat.le_of_not_le h
    have hlength : (rs.take j).length = j :=
      List.length_take_of_le (Nat.le_of_lt (List.getElem?_eq_some_iff.1 hr).1)
    rw [Nat.min_eq_right hj, stretch_of_le hj, List.take_add_one, hr, List.drop_left' hlength]
    rfl

theorem transitionKinds_succ (hr : rs[j]? = some r) (h : firstBegin rs ≤ j) :
    transitionKinds rs (j + 1) = transitionKinds rs j ++ r.transitionKind?.toList := by
  rw [transitionKinds, stretch_succ hr h, List.filterMap_append]
  cases hkind : r.transitionKind? with
  | none => rw [List.filterMap_cons_none hkind]; rfl
  | some kind => rw [List.filterMap_cons_some hkind]; rfl

theorem transitionKinds_of_transition {kind : RecordKind} {run : UInt32} (hr : rs[j]? = some r)
    (h : firstBegin rs ≤ j) (htransition : r.transition? = some (kind, run)) :
    transitionKinds rs (j + 1) = transitionKinds rs j ++ [kind] := by
  rw [transitionKinds_succ hr h, Record.transitionKind?_eq_some.2 ⟨run, htransition⟩]
  rfl

end Stretch

section Found

variable {rs : List Record} {r : Record} {j m : Nat}

theorem firstBegin_eq_iff (hr : rs[j]? = some r) (hj : j ≤ firstBegin rs) :
    firstBegin rs = j ↔ r.transitionKind? = some .beginRun :=
  firstIndex_eq_iff hr hj

theorem firstAbnormal_eq_iff (hr : rs[j]? = some r) (hj : j ≤ firstAbnormal rs) :
    firstAbnormal rs = j ↔ r.kind = .abnormalEnd :=
  firstIndex_eq_iff hr hj

theorem lastEnd_eq_iff (hr : rs[j]? = some r) (hj : j ≤ lastEnd rs m) :
    lastEnd rs m = j ↔ firstBegin rs ≤ j ∧ r.transitionKind? = some .endRun ∧
      (transitionKinds rs (j + 1)).count .endRun = m :=
  firstIndex_eq_iff hr hj

theorem firstBegin_le_lastEnd (h : lastEnd rs m < rs.length) : firstBegin rs ≤ lastEnd rs m :=
  ((lastEnd_eq_iff (List.getElem?_eq_getElem h) (Nat.le_refl _)).1 rfl).1

theorem contradiction_eq_iff (hr : rs[j]? = some r) (hj : j ≤ contradiction rs m) :
    contradiction rs m = j ↔ firstBegin rs < j ∧ ∃ t ∈ r.transition?, run? rs ≠ some t.2 ∨
      t.1 = .beginRun ∧ (transitionKinds rs (j + 1)).count .beginRun = m + 1 :=
  firstIndex_eq_iff hr hj

end Found

end OneRun

namespace RunBarrier

open OneRun

section Handle

variable {n : Nat} {rs : List Record} {j : Nat} {r : Record} {b : RunBarrier}

theorem handle_of_transition {kind : RecordKind} {run : UInt32}
    (h : r.transition? = some (kind, run)) :
    b.handle r = match b.update kind run with
      | .ok b' => (.ok (b'.verdict r), b')
      | .error e => (.error (.unexpectedTransition e), b) := by
  unfold handle
  unfold Record.transition? at h
  cases hbody : r.body with
  | stateChange change =>
    rw [hbody] at h
    dsimp only at h ⊢
    split at h
    · cases h
      rfl
    · cases h
  | _ =>
    rw [hbody] at h
    cases h

/-- Anything but a transition leaves the barrier as it is. -/
theorem handle_of_no_transition (h : r.transition? = none) (hopen : b.complete = false)
    (htracks : ∀ k, b.tracks k = k.isStateChange) : b.handle r = (.ok (b.verdict r), b) := by
  unfold handle
  unfold Record.transition? at h
  cases hbody : r.body with
  | stateChange change =>
    rw [hbody] at h
    dsimp only at h ⊢
    split at h
    · cases h
    · rename_i huntracked
      rw [update_of_accounted hopen (.ignored (by rw [htracks]; simpa using huntracked))]
  | _ => rfl

/-- A barrier for the transitions of `n` producers has followed a run up to a position at which it
    is neither complete nor contradicted. -/
structure InRun (n : Nat) (rs : List Record) (run : UInt32) (j : Nat) (b : RunBarrier) : Prop where
  begun : firstBegin rs < j
  number : run? rs = some run
  follows : Follows (max n 1) run (transitionKinds rs j) b
  begins : (transitionKinds rs j).count .beginRun ≤ max n 1
  ends : (transitionKinds rs j).count .endRun < max n 1

/-- What a barrier for the transitions of `n` producers has counted when it gets to a position
    without having stopped. -/
inductive Stands (n : Nat) (rs : List Record) (j : Nat) : RunBarrier → Prop
  | before : j ≤ firstBegin rs → Stands n rs j (ofRunTransitions n)
  | within {b : RunBarrier} {run : UInt32} : InRun n rs run j b → Stands n rs j b

/-- The barrier passes on the record at a position and goes on, unless this is the last end. -/
def PassesOn (n : Nat) (rs : List Record) (j : Nat) (r : Record) (b : RunBarrier) : Prop :=
  ∃ b', b.handle r = (.ok (.emit r), b') ∧
    (b'.complete = true ↔ lastEnd rs (max n 1) = j) ∧
    (b'.complete = false → Stands n rs (j + 1) b')

theorem Follows.verdict {run : UInt32} {seen : List RecordKind} (h : Follows n run seen b)
    (r : Record) : b.verdict r = .emit r := by
  rw [RunBarrier.verdict, h.waiting]
  rfl

theorem Follows.handle_of_update {b' : RunBarrier} {kind : RecordKind} {run number : UInt32}
    {seen : List RecordKind} (h : Follows n run seen b')
    (htransition : r.transition? = some (kind, number)) (hupdate : b.update kind number = .ok b') :
    b.handle r = (.ok (.emit r), b') := by
  rw [handle_of_transition htransition, hupdate]
  dsimp only
  rw [h.verdict]

namespace InRun

variable {run : UInt32} {kind : RecordKind} {other : UInt32}

theorem complete_eq_false (h : InRun n rs run j b) : b.complete = false :=
  h.follows.complete_eq_false (Nat.ne_of_lt h.ends)

/-- A contradiction is an error. -/
theorem handle_contradiction (h : InRun n rs run j b) (hr : rs[j]? = some r)
    (hj : contradiction rs (max n 1) = j) :
    ∃ cause, b.handle r = (.error (.unexpectedTransition cause), b) := by
  obtain ⟨hbegun, ⟨kind, other⟩, htransition, hcause⟩ :=
    (contradiction_eq_iff hr (Nat.le_of_eq hj.symm)).1 hj
  rw [handle_of_transition htransition]
  have hkind := (Record.transition?_eq_some.1 htransition).1
  by_cases hother : run = other
  · subst hother
    rcases hcause with hrun | ⟨rfl, hcount⟩
    · exact absurd h.number hrun
    · rw [transitionKinds_of_transition hr (Nat.le_of_lt hbegun) htransition, List.count_append,
        List.count_singleton_self] at hcount
      exact ⟨_, by rw [h.follows.update_surplus (Nat.ne_of_lt h.ends) (by omega)]⟩
  · exact ⟨_, by rw [h.follows.update_otherRun (Nat.ne_of_lt h.ends) hkind hother]⟩

/-- Anything but a transition is passed on. -/
theorem passesOn_of_no_transition (h : InRun n rs run j b) (hr : rs[j]? = some r)
    (hend : j ≤ lastEnd rs (max n 1)) (htransition : r.transition? = none) :
    PassesOn n rs j r b := by
  have hkind : r.transitionKind? = none := by rw [Record.transitionKind?, htransition]; rfl
  have hsame : transitionKinds rs (j + 1) = transitionKinds rs j := by
    rw [transitionKinds_succ hr (Nat.le_of_lt h.begun), hkind]
    exact List.append_nil _
  refine ⟨b, ?_, ?_, fun _ => .within ⟨?_, h.number, ?_, ?_, ?_⟩⟩
  · rw [handle_of_no_transition htransition h.complete_eq_false h.follows.tracks, h.follows.verdict]
  · rw [lastEnd_eq_iff hr hend, h.complete_eq_false, hkind]
    simp
  · exact Nat.lt_succ_of_lt h.begun
  · rw [hsame]
    exact h.follows
  · rw [hsame]
    exact h.begins
  · rw [hsame]
    exact h.ends

/-- A transition that is no contradiction is of the run in progress, and no begin too many. -/
theorem of_lt_contradiction (h : InRun n rs run j b) (hr : rs[j]? = some r)
    (hsound : j < contradiction rs (max n 1)) (htransition : r.transition? = some (kind, other)) :
    other = run ∧ (kind = .beginRun → (transitionKinds rs j).count .beginRun < max n 1) := by
  have hnone := (contradiction_eq_iff hr (Nat.le_of_lt hsound)).not.1 (Nat.ne_of_gt hsound)
  constructor
  · by_contra hother
    refine hnone ⟨h.begun, (kind, other), htransition, .inl ?_⟩
    rw [h.number]
    simpa using Ne.symm hother
  · rintro rfl
    by_contra hfull
    have hbegins := h.begins
    refine hnone ⟨h.begun, (.beginRun, other), htransition, .inr ⟨rfl, ?_⟩⟩
    rw [transitionKinds_of_transition hr (Nat.le_of_lt h.begun) htransition, List.count_append,
      List.count_singleton_self]
    omega

/-- Such a transition is passed on, and the barrier is complete with the last end. -/
theorem passesOn_of_transition (h : InRun n rs run j b) (hr : rs[j]? = some r)
    (hsound : j < contradiction rs (max n 1)) (hend : j ≤ lastEnd rs (max n 1))
    (htransition : r.transition? = some (kind, other)) : PassesOn n rs j r b := by
  obtain ⟨rfl, hroom⟩ := h.of_lt_contradiction hr hsound htransition
  have hbegun := Nat.le_of_lt h.begun
  have hseen := transitionKinds_of_transition hr hbegun htransition
  have hcount (k : RecordKind) : (transitionKinds rs (j + 1)).count k =
      (transitionKinds rs j).count k + if kind = k then 1 else 0 := by
    rw [hseen, List.count_append, List.count_singleton]
    simp only [beq_iff_eq]
  have hends := h.ends
  obtain ⟨b', hupdate, hfollows⟩ := h.follows.update_next (Nat.ne_of_lt hends)
    (Record.transition?_eq_some.1 htransition).1 hroom
  rw [← hseen] at hfollows
  refine ⟨b', ?_, ?_, fun hopen => .within ⟨Nat.lt_succ_of_lt h.begun, h.number, hfollows, ?_, ?_⟩⟩
  · exact hfollows.handle_of_update htransition hupdate
  · rw [lastEnd_eq_iff hr hend, hfollows.complete, beq_iff_eq,
      Record.transitionKind?_eq_some.2 ⟨_, htransition⟩, Option.some.injEq]
    constructor
    · intro hall
      refine ⟨hbegun, ?_, hall⟩
      by_contra hother
      rw [hcount, if_neg hother] at hall
      omega
    · rintro ⟨-, -, hall⟩
      exact hall
  · rw [hcount]
    split
    · rename_i hkind
      have := hroom hkind
      omega
    · exact h.begins
  · have hmissing : (transitionKinds rs (j + 1)).count .endRun ≠ max n 1 := by
      rwa [hfollows.complete, beq_eq_false_iff_ne] at hopen
    have hatMost : (if kind = .endRun then 1 else 0) ≤ 1 := by split <;> omega
    rw [hcount] at hmissing ⊢
    omega

end InRun

namespace Stands

theorem complete_eq_false (h : Stands n rs j b) : b.complete = false := by
  cases h with
  | before => rfl
  | within hrun => exact hrun.complete_eq_false

/-- Before the first begin, everything is dropped. -/
theorem handle_before (h : Stands n rs j b) (hr : rs[j]? = some r) (hj : j < firstBegin rs) :
    b.handle r = (.ok .drop, b) ∧ Stands n rs (j + 1) b := by
  have hkind : r.transitionKind? ≠ some .beginRun := by
    intro hbegin
    exact Nat.ne_of_gt hj ((firstBegin_eq_iff hr (Nat.le_of_lt hj)).2 hbegin)
  cases h with
  | within hrun => exact absurd hrun.begun (Nat.not_lt_of_gt hj)
  | before =>
    refine ⟨?_, .before hj⟩
    cases htransition : r.transition? with
    | none => exact handle_of_no_transition htransition rfl (tracks_ofRunTransitions n)
    | some t =>
      obtain ⟨kind, run⟩ := t
      have hnot : kind ≠ .beginRun := by
        rintro rfl
        exact hkind (Record.transitionKind?_eq_some.2 ⟨run, htransition⟩)
      rw [handle_of_transition htransition, update_early n hnot]
      rfl

/-- A contradiction is an error. -/
theorem handle_contradiction (h : Stands n rs j b) (hr : rs[j]? = some r)
    (hj : contradiction rs (max n 1) = j) :
    ∃ cause, b.handle r = (.error (.unexpectedTransition cause), b) := by
  cases h with
  | within hrun => exact hrun.handle_contradiction hr hj
  | before hbefore =>
    have hbegun := ((contradiction_eq_iff hr (Nat.le_of_eq hj.symm)).1 hj).1
    exact absurd hbegun (Nat.not_lt_of_ge hbefore)

/-- The first begin is passed on. -/
theorem passesOn_first (n : Nat) (hr : rs[j]? = some r) (hj : firstBegin rs = j)
    (hend : j ≤ lastEnd rs (max n 1)) : PassesOn n rs j r (ofRunTransitions n) := by
  have hkind := (firstBegin_eq_iff hr (Nat.le_of_eq hj.symm)).1 hj
  obtain ⟨run, htransition⟩ := Record.transitionKind?_eq_some.1 hkind
  obtain ⟨b, hupdate, hfollows⟩ := update_first n run
  have hseen : transitionKinds rs (j + 1) = [.beginRun] := by
    rw [transitionKinds_of_transition hr (Nat.le_of_eq hj) htransition, transitionKinds,
      stretch_of_le (Nat.le_of_eq hj.symm)]
    rfl
  have hpositive : 0 < max n 1 := Nat.lt_of_lt_of_le Nat.one_pos (Nat.le_max_right n 1)
  have hopen : b.complete = false := hfollows.complete_eq_false (Nat.ne_of_lt hpositive)
  have hinRun : InRun n rs run (j + 1) b := by
    refine ⟨Nat.lt_succ_of_le (Nat.le_of_eq hj), ?_, ?_, ?_, ?_⟩
    · rw [run?, hj, hr]
      exact (Record.transition?_eq_some.1 htransition).2.2
    · rw [hseen]
      exact hfollows
    · rw [hseen]
      exact Nat.le_max_right n 1
    · rw [hseen]
      exact hpositive
  refine ⟨b, ?_, ?_, fun _ => .within hinRun⟩
  · exact hfollows.handle_of_update htransition hupdate
  · rw [lastEnd_eq_iff hr hend, hopen, hkind]
    simp

/-- From the first begin on, everything else is passed on. -/
theorem passesOn (h : Stands n rs j b) (hr : rs[j]? = some r) (hbegun : firstBegin rs ≤ j)
    (hsound : j < contradiction rs (max n 1)) (hend : j ≤ lastEnd rs (max n 1)) :
    PassesOn n rs j r b := by
  cases h with
  | before hbefore => exact passesOn_first n hr (Nat.le_antisymm hbegun hbefore) hend
  | within hrun =>
    cases htransition : r.transition? with
    | none => exact hrun.passesOn_of_no_transition hr hend htransition
    | some t => exact hrun.passesOn_of_transition hr hsound hend htransition

end Stands

end Handle

end RunBarrier

end DaqStream
