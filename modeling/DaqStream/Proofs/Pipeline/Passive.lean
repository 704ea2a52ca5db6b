import DaqStream.Filter.Basic

/-!
# Filters that let everything through

A chain emits a record unchanged when each of its members does (`handleAll_of_forall`), and is
prepared, closed and not yet complete when each of them is. So a filter that is made of
transparent filters and counters, however it is grouped, is no more than an onlooker of a run.
-/

namespace DaqStream

namespace Filter

variable {ω χ : Type} [CustomFilter ω χ]

section Chains

variable {P : Filter χ → Prop} {fs : List (Filter χ)} {r : Record} {w : ω}

theorem startAll_of_forall (h : ∀ f ∈ fs, ∃ f', f.start w = (.ok (), f', w) ∧ P f') :
    ∃ fs', startAll fs w = (.ok (), fs', w) ∧ ∀ f ∈ fs', P f := by
  induction fs with
  | nil => exact ⟨[], rfl, by simp⟩
  | cons f fs ih =>
    obtain ⟨f', hf, hP⟩ := h f (by simp)
    obtain ⟨fs', hfs, hPs⟩ := ih fun g hg => h g (by simp [hg])
    exact ⟨f' :: fs', by simp only [startAll, hf, hfs], List.forall_mem_cons.2 ⟨hP, hPs⟩⟩

theorem finishAll_of_forall (h : ∀ f ∈ fs, ∃ f', f.finish w = (.ok (), f', w) ∧ P f') :
    ∃ fs', finishAll fs w = (.ok (), fs', w) ∧ ∀ f ∈ fs', P f := by
  induction fs with
  | nil => exact ⟨[], rfl, by simp⟩
  | cons f fs ih =>
    obtain ⟨f', hf, hP⟩ := h f (by simp)
    obtain ⟨fs', hfs, hPs⟩ := ih fun g hg => h g (by simp [hg])
    exact ⟨f' :: fs', by simp only [finishAll, hf, hfs], List.forall_mem_cons.2 ⟨hP, hPs⟩⟩

theorem handleAll_of_forall (h : ∀ f ∈ fs, ∃ f', f.handle r w = (.ok (.emit r), f', w) ∧ P f') :
    ∃ fs', handleAll fs r w = (.ok (.emit r), fs', w) ∧ ∀ f ∈ fs', P f := by
  induction fs with
  | nil => exact ⟨[], rfl, by simp⟩
  | cons f fs ih =>
    obtain ⟨f', hf, hP⟩ := h f (by simp)
    obtain ⟨fs', hfs, hPs⟩ := ih fun g hg => h g (by simp [hg])
    exact ⟨f' :: fs', by simp only [handleAll, hf, hfs], List.forall_mem_cons.2 ⟨hP, hPs⟩⟩

theorem anyComplete_of_forall (h : ∀ f ∈ fs, f.isComplete w = false) :
    anyComplete w fs = false := by
  induction fs with
  | nil => rfl
  | cons f fs ih =>
    rw [anyComplete, h f (by simp), ih fun g hg => h g (by simp [hg])]
    rfl

end Chains

/-- A filter is made of transparent filters and counters only. -/
inductive Passive : Filter χ → Prop
  | transparent : Passive transparent
  | kindCount (counts : KindCounts) : Passive (kindCount counts)
  | chain {members : List (Filter χ)} : (∀ f ∈ members, Passive f) → Passive (chain members)

namespace Passive

variable {f : Filter χ}

theorem start (h : Passive f) (w : ω) : ∃ f', f.start w = (.ok (), f', w) ∧ Passive f' := by
  induction h with
  | transparent => exact ⟨_, rfl, .transparent⟩
  | kindCount counts => exact ⟨_, rfl, .kindCount {}⟩
  | @chain members _ ih =>
    obtain ⟨fs, hstart, hpassive⟩ := startAll_of_forall ih
    exact ⟨.chain fs, by simp only [Filter.start, hstart], .chain hpassive⟩

theorem finish (h : Passive f) (w : ω) : ∃ f', f.finish w = (.ok (), f', w) ∧ Passive f' := by
  induction h with
  | transparent => exact ⟨_, rfl, .transparent⟩
  | kindCount counts => exact ⟨_, rfl, .kindCount counts⟩
  | @chain members _ ih =>
    obtain ⟨fs, hfinish, hpassive⟩ := finishAll_of_forall ih
    exact ⟨.chain fs, by simp only [Filter.finish, hfinish], .chain hpassive⟩

theorem handle (h : Passive f) (r : Record) (w : ω) :
    ∃ f', f.handle r w = (.ok (.emit r), f', w) ∧ Passive f' := by
  induction h with
  | transparent => exact ⟨_, rfl, .transparent⟩
  | kindCount counts => exact ⟨_, rfl, .kindCount (counts.add r)⟩
  | @chain members _ ih =>
    obtain ⟨fs, hhandle, hpassive⟩ := handleAll_of_forall ih
    exact ⟨.chain fs, by simp only [Filter.handle, hhandle], .chain hpassive⟩

theorem isComplete (h : Passive f) (w : ω) : f.isComplete w = false := by
  induction h with
  | transparent => rfl
  | kindCount counts => rfl
  | @chain members _ ih => exact anyComplete_of_forall ih

end Passive

end Filter

end DaqStream
