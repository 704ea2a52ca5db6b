import Mathlib.Logic.Basic

/-!
# Groups in groups

Items that something is handed along may be put together in groups, which are items themselves.
When a group hands along what its items do, the groups make no difference: the same comes out at
the end, and every item is left in the same state (`passAlong_wrapped`). So it is with everything
that a group does by handing something along its items, one request after the other
(`seesThrough_calls`).
-/

namespace DaqStream

/-- Items in order, some of them put together in groups, which may be empty and may hold groups. -/
inductive Grouping (α : Type) where
  | nil
  | item (a : α) (rest : Grouping α)
  | group (inner rest : Grouping α)

namespace Grouping

variable {α : Type}

/-- All items, without the groups. -/
def items : Grouping α → List α
  | nil => []
  | item a rest => a :: rest.items
  | group inner rest => inner.items ++ rest.items

/-- The items with every group as one item, as `wrap` makes it of what is in the group. -/
def wrapped (wrap : List α → α) : Grouping α → List α
  | nil => []
  | item a rest => a :: rest.wrapped wrap
  | group inner rest => wrap (inner.wrapped wrap) :: rest.wrapped wrap

/-- The groups, whatever the items are. -/
def shape : Grouping α → Grouping Unit
  | nil => nil
  | item _ rest => item () rest.shape
  | group inner rest => group inner.shape rest.shape

end Grouping

section PassAlong

variable {α ι ε ω : Type} {step : α → ι → ω → Except ε ι × α × ω}

/-- Hand something along from item to item, up to the first that stops it. -/
def passAlong (step : α → ι → ω → Except ε ι × α × ω) :
    List α → ι → ω → Except ε ι × List α × ω
  | [], i, w => (.ok i, [], w)
  | a :: as, i, w =>
    match step a i w with
    | (.ok i', a', w') =>
      match passAlong step as i' w' with
      | (out, as', w'') => (out, a' :: as', w'')
    | (.error e, a', w') => (.error e, a' :: as, w')

variable {as as' bs bs' : List α} {a a' : α} {i i' : ι} {e : ε} {out : Except ε ι} {v w w' : ω}

theorem passAlong_cons_of_ok (h : step a i w = (.ok i', a', v))
    (hrest : passAlong step as i' v = (out, as', w')) :
    passAlong step (a :: as) i w = (out, a' :: as', w') := by
  rw [passAlong, h]
  dsimp only
  rw [hrest]

theorem passAlong_cons_of_error (h : step a i w = (.error e, a', w')) (as : List α) :
    passAlong step (a :: as) i w = (.error e, a' :: as, w') := by
  rw [passAlong, h]

theorem passAlong_append_of_ok (h : passAlong step as i w = (.ok i', as', v))
    (hrest : passAlong step bs i' v = (out, bs', w')) :
    passAlong step (as ++ bs) i w = (out, as' ++ bs', w') := by
  induction as generalizing i w as' with
  | nil =>
    cases h
    exact hrest
  | cons a as ih =>
    rcases hstep : step a i w with ⟨_ | j, a', u⟩
    · rw [passAlong_cons_of_error hstep] at h
      cases h
    · rcases hmore : passAlong step as j u with ⟨_, as'', _⟩
      rw [passAlong_cons_of_ok hstep hmore] at h
      cases h
      exact passAlong_cons_of_ok hstep (ih hmore)

theorem passAlong_append_of_error (h : passAlong step as i w = (.error e, as', w'))
    (bs : List α) : passAlong step (as ++ bs) i w = (.error e, as' ++ bs, w') := by
  induction as generalizing i w as' with
  | nil => cases h
  | cons a as ih =>
    rcases hstep : step a i w with ⟨_ | j, a', u⟩
    · rw [passAlong_cons_of_error hstep] at h
      cases h
      exact passAlong_cons_of_error hstep (as ++ bs)
    · rcases hmore : passAlong step as j u with ⟨_, as'', _⟩
      rw [passAlong_cons_of_ok hstep hmore] at h
      cases h
      exact passAlong_cons_of_ok hstep (ih hmore)

/-- Groups that hand along what their items do make no difference. -/
theorem passAlong_wrapped {wrap : List α → α}
    (hwrap : ∀ as i w, step (wrap as) i w =
      match passAlong step as i w with
      | (out, as', w') => (out, wrap as', w'))
    (g : Grouping α) (i : ι) (w : ω) :
    ∃ (out : Except ε ι) (g' : Grouping α) (w' : ω), g'.shape = g.shape ∧
      passAlong step g.items i w = (out, g'.items, w') ∧
      passAlong step (g.wrapped wrap) i w = (out, g'.wrapped wrap, w') := by
  induction g generalizing i w with
  | nil => exact ⟨.ok i, .nil, w, rfl, rfl, rfl⟩
  | item a rest ih =>
    rcases hstep : step a i w with ⟨e | j, a', v⟩
    · exact ⟨.error e, .item a' rest, v, rfl, passAlong_cons_of_error hstep rest.items,
        passAlong_cons_of_error hstep (rest.wrapped wrap)⟩
    · obtain ⟨out, rest', w', hshape, hflat, hwrapped⟩ := ih j v
      exact ⟨out, .item a' rest', w', congrArg (Grouping.item ()) hshape,
        passAlong_cons_of_ok hstep hflat, passAlong_cons_of_ok hstep hwrapped⟩
  | group inner rest ihinner ihrest =>
    obtain ⟨out, inner', v, hshape, hflat, hwrapped⟩ := ihinner i w
    -- The group stops where one of its items does, and only there.
    have hgroup : step (wrap (inner.wrapped wrap)) i w = (out, wrap (inner'.wrapped wrap), v) := by
      rw [hwrap, hwrapped]
    cases out with
    | error e =>
      exact ⟨.error e, .group inner' rest, v, congrArg (Grouping.group · rest.shape) hshape,
        passAlong_append_of_error hflat rest.items,
        passAlong_cons_of_error hgroup (rest.wrapped wrap)⟩
    | ok j =>
      obtain ⟨out, rest', w', hshape', hflat', hwrapped'⟩ := ihrest j v
      exact ⟨out, .group inner' rest', w', congrArg₂ Grouping.group hshape hshape',
        passAlong_append_of_ok hflat hflat', passAlong_cons_of_ok hgroup hwrapped'⟩

end PassAlong

section Requests

variable {α ι ε κ ρ ω : Type} {wrap : List α → α} {act : α → ω → ρ × α × ω}

/-- Groups in a group make no difference to what the group answers, nor to its items, which stay in
    their groups. -/
def SeesThrough (wrap : List α → α) (act : α → ω → ρ × α × ω) : Prop :=
  ∀ (g : Grouping α) (w : ω), ∃ (reply : ρ) (g' : Grouping α) (w' : ω), g'.shape = g.shape ∧
    act (wrap g.items) w = (reply, wrap g'.items, w') ∧
    act (wrap (g.wrapped wrap)) w = (reply, wrap (g'.wrapped wrap), w')

theorem seesThrough_of_passAlong {i : ι} (answer : Except ε ι → ρ)
    {step : α → ι → ω → Except ε ι × α × ω}
    (hwrap : ∀ as i w, step (wrap as) i w =
      match passAlong step as i w with
      | (out, as', w') => (out, wrap as', w'))
    (hact : ∀ as w, act (wrap as) w =
      match passAlong step as i w with
      | (out, as', w') => (answer out, wrap as', w')) :
    SeesThrough wrap act := by
  intro g w
  obtain ⟨out, g', w', hshape, hflat, hwrapped⟩ := passAlong_wrapped hwrap g i w
  exact ⟨answer out, g', w', hshape, by rw [hact, hflat], by rw [hact, hwrapped]⟩

variable {call : α → κ → ω → ρ × α × ω}

/-- What is answered to requests in order. -/
def calls (call : α → κ → ω → ρ × α × ω) (a : α) : List κ → ω → List ρ × α × ω
  | [], w => ([], a, w)
  | q :: qs, w =>
    match call a q w with
    | (reply, a', w') =>
      match calls call a' qs w' with
      | (replies, a'', w'') => (reply :: replies, a'', w'')

theorem calls_cons {a a' a'' : α} {q : κ} {qs : List κ} {reply : ρ} {replies : List ρ}
    {w w' w'' : ω} (h : call a q w = (reply, a', w'))
    (hrest : calls call a' qs w' = (replies, a'', w'')) :
    calls call a (q :: qs) w = (reply :: replies, a'', w'') := by
  rw [calls, h]
  dsimp only
  rw [hrest]

theorem seesThrough_calls (h : ∀ q, SeesThrough wrap (call · q)) (qs : List κ) :
    SeesThrough wrap (calls call · qs) := by
  induction qs with
  | nil => exact fun g w => ⟨[], g, w, rfl, rfl, rfl⟩
  | cons q qs ih =>
    intro g w
    obtain ⟨reply, g₁, w₁, hshape, hflat, hwrapped⟩ := h q g w
    obtain ⟨replies, g', w', hshape', hflat', hwrapped'⟩ := ih g₁ w₁
    exact ⟨reply :: replies, g', w', hshape'.trans hshape, calls_cons hflat hflat',
      calls_cons hwrapped hwrapped'⟩

end Requests

end DaqStream
