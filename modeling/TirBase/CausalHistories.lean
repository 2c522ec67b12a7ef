import Mathlib

/-! # Causal histories

An event names some causes, and its author knew some events when it happened. The named causes may be
fewer than what was known: it is enough that everything known leads to one of them. -/
namespace TirBase.CausalHistories

structure Event (Id : Type*) where
  id : Id
  causes : List Id
  known : List Id

variable {Id : Type*} {events : List (Event Id)} {e : Event Id} {a : Id}

/-- One event comes before another along the named causes. -/
def Precedes (events : List (Event Id)) : Id → Id → Prop :=
  Relation.TransGen fun a b => ∃ e ∈ events, e.id = b ∧ a ∈ e.causes

/-- What is named is known, what is known is known with its causes, and everything known is named or
leads to what is named. -/
structure Complete (events : List (Event Id)) : Prop where
  unique : ∀ e ∈ events, ∀ e' ∈ events, e.id = e'.id → e = e'
  named : ∀ e ∈ events, ∀ a ∈ e.causes, a ∈ e.known
  closed : ∀ e ∈ events, ∀ e' ∈ events, e'.id ∈ e.known → ∀ a ∈ e'.causes, a ∈ e.known
  covered : ∀ e ∈ events, ∀ a ∈ e.known, ∃ b ∈ e.causes, a = b ∨ Precedes events a b

theorem Precedes.of_cause {b : Id} (h : Precedes events a b) (he : e ∈ events) (hb : b ∈ e.causes) :
    Precedes events a e.id :=
  h.tail ⟨e, he, rfl, hb⟩

theorem Complete.known_of_precedes (h : Complete events) (he : e ∈ events)
    (ha : Precedes events a e.id) : a ∈ e.known := by
  -- From the event back along the causes: each of them is known with its own.
  induction ha using Relation.TransGen.head_induction_on with
  | single hcause =>
    obtain ⟨e', he', hid, hcause⟩ := hcause
    rw [← h.unique e' he' e he hid]
    exact h.named e' he' _ hcause
  | head hcause _ ih =>
    obtain ⟨e', he', hid, hcause⟩ := hcause
    apply h.closed e he e' he' _ _ hcause
    rw [hid]
    exact ih

/-- An event comes after exactly those that its author knew. -/
theorem Complete.precedes_iff (h : Complete events) (he : e ∈ events) :
    Precedes events a e.id ↔ a ∈ e.known := by
  constructor
  · exact h.known_of_precedes he
  · intro ha
    obtain ⟨b, hb, rfl | hab⟩ := h.covered e he a ha
    · exact .single ⟨e, he, rfl, hb⟩
    · exact hab.of_cause he hb

end TirBase.CausalHistories
