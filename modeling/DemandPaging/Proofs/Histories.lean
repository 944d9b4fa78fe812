/-!
# Histories

A history is the list of what happened, the latest event at the end. A law about a component often
speaks of each event and of the history before it: this is `History.Throughout`. And what a
component stores is often what an event last put there: this is `History.last?`. Both are told from
the front to the back, while a history grows at the back, which is what the lemmas are for.

## Main definitions

* `History.Throughout` — what holds of each event and the history before it.
* `History.last?` — the latest word on something.
-/

namespace DemandPaging

namespace History

variable {α β : Type} {history : List α} {e : α}

/-- `P` holds of each event and the history before it. -/
def Throughout (P : List α → α → Prop) (history : List α) : Prop :=
  ∀ earlier e later, history = earlier ++ e :: later → P earlier e

theorem throughout_nil {P : List α → α → Prop} : Throughout P [] := by
  intro earlier e later h
  simp at h

/-- One more event is either the last or one of those before. -/
theorem Throughout.concat {P : List α → α → Prop} (h : Throughout P history) (he : P history e) :
    Throughout P (history ++ [e]) := by
  intro earlier e' later heq
  rcases List.eq_nil_or_concat later with rfl | ⟨later, last, rfl⟩
  · obtain ⟨rfl, hlast⟩ := List.append_inj' heq rfl
    cases hlast
    exact he
  · rw [List.concat_eq_append, ← List.cons_append, ← List.append_assoc] at heq
    obtain ⟨hhistory, -⟩ := List.append_inj' heq rfl
    exact h earlier e' later hhistory

theorem Throughout.of_mem {P : List α → α → Prop} (h : Throughout P history) (he : e ∈ history) :
    ∃ earlier, P earlier e := by
  obtain ⟨earlier, later, heq⟩ := List.append_of_mem he
  exact ⟨earlier, h earlier e later heq⟩

/-- What the latest event says that says something. -/
def last? (f : α → Option β) (history : List α) : Option β := history.reverse.findSome? f

theorem last?_concat (f : α → Option β) (history : List α) (e : α) :
    last? f (history ++ [e]) = (f e).or (last? f history) := by
  simp only [last?, List.reverse_append, List.reverse_singleton, List.singleton_append,
    List.findSome?_cons]
  cases f e <;> rfl

end History

end DemandPaging
