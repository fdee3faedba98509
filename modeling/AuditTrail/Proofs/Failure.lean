import AuditTrail.Failure
import Mathlib.Data.List.Forall2

/-!
# Steps that may fail

A row of steps has a result exactly if each step has one. These are the facts by which checks and readers
are taken apart step by step.
-/

namespace AuditTrail

theorem Except.bind_eq_ok {ε α β : Type} {x : Except ε α} {f : α → Except ε β} {b : β} :
    (x >>= f) = .ok b ↔ ∃ a, x = .ok a ∧ f a = .ok b := by
  cases x with
  | error e => simp [bind, Except.bind]
  | ok a => simp [bind, Except.bind]

theorem Except.ok_bind {ε α β : Type} (a : α) (f : α → Except ε β) :
    ((.ok a : Except ε α) >>= f) = f a := rfl

/-- A step that is taken for each item of a list. -/
theorem Except.mapM_eq_ok {ε α β : Type} {f : α → Except ε β} {items : List α} {results : List β} :
    items.mapM f = .ok results ↔ List.Forall₂ (fun a b => f a = .ok b) items results := by
  induction items generalizing results with
  | nil => simp [pure, Except.pure, eq_comm]
  | cons a rest ih =>
    rw [List.mapM_cons, Except.bind_eq_ok, List.forall₂_cons_left_iff]
    constructor
    · rintro ⟨b, hb, h⟩
      obtain ⟨more, hmore, hresults⟩ := Except.bind_eq_ok.mp h
      exact ⟨b, more, hb, ih.mp hmore, (Except.ok.inj hresults).symm⟩
    · rintro ⟨b, more, hb, hmore, rfl⟩
      exact ⟨b, hb, Except.bind_eq_ok.mpr ⟨more, ih.mpr hmore, rfl⟩⟩

end AuditTrail
