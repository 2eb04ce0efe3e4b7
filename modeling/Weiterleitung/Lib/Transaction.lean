/-
# `Lib.Transaction` — statements that take effect together

A transaction works on a copy: each statement finds what the ones before it did, others find
what was committed.  `begin`, a statement and `commit` may fail, a statement may be refused;
the handle is then dropped, and the copy with it (`transact`).  So there are
two outcomes and no third:

    every statement took effect, in their order
    an error, and nothing took effect                         (`transact_cases`)
-/
import Mathlib

namespace Statements

variable {σ ε : Type}

/-- The statements on the copy.  `fails n` is the error of the `n`th call of the database,
`refused n` that of a statement which a constraint refuses. -/
def execute (fails : Nat → Option ε) (refused : Nat → ε) :
    Nat → List (σ → Option σ) → σ → Except ε σ
  | _, [], copy => .ok copy
  | n, statement :: statements, copy =>
      match fails n with
      | some e => .error e
      | none =>
          match statement copy with
          | none => .error (refused n)
          | some copy => execute fails refused (n + 1) statements copy

/-- `begin`, the statements and `commit`: what is returned, and the state then. -/
def transact (fails : Nat → Option ε) (refused : Nat → ε) (statements : List (σ → Option σ))
    (s : σ) :
    Except ε Unit × σ :=
  match fails 0 with
  | some e => (.error e, s)
  | none =>
      match execute fails refused 1 statements s with
      | .error e => (.error e, s)
      | .ok copy =>
          match fails (statements.length + 1) with
          | some e => (.error e, s)
          | none => (.ok (), copy)

variable {fails : Nat → Option ε} {refused : Nat → ε} {statements : List (σ → Option σ)}
    {s : σ}

theorem execute_ok {copy : σ} :
    ∀ {n : Nat} {s : σ}, execute fails refused n statements s = .ok copy →
    statements.foldlM (fun s statement => statement s) s = some copy := by
  induction statements with
  | nil =>
      rintro n s ⟨⟩
      rfl
  | cons statement statements ih =>
      intro n s h
      unfold execute at h
      split at h
      · cases h
      · split at h
        · cases h
        · next s' hs =>
            rw [List.foldlM_cons, hs]
            exact ih h

/-- All of it, or an error and nothing of it. -/
theorem transact_cases (fails : Nat → Option ε)
    (refused : Nat → ε) (statements : List (σ → Option σ)) (s : σ) :
    (∃ s', statements.foldlM (fun s statement => statement s) s = some s' ∧
      transact fails refused statements s = (.ok (), s')) ∨
    ∃ e, transact fails refused statements s = (.error e, s) := by
  unfold transact
  split
  · exact Or.inr ⟨_, rfl⟩
  · split
    · exact Or.inr ⟨_, rfl⟩
    · next copy hcopy =>
        split
        · exact Or.inr ⟨_, rfl⟩
        · exact Or.inl ⟨copy, execute_ok hcopy, rfl⟩

end Statements
