import Mathlib.Logic.Function.Basic
import Mathlib.Tactic.Linarith

namespace Transfers

/-!
# Transfers between accounts

The effect of a transfer is the change it makes to every account, as an
integer, so that a transfer from an account to itself is no change and several
transfers add up.
-/

variable
    {Account : Type}
    [DecidableEq Account]

/-- Change of an account's balance by a transfer. -/
def change
    (payer payee : Account)
    (amount : ℕ)
    (account : Account) : ℤ :=
  (if account = payee then (amount : ℤ) else 0) -
    (if account = payer then (amount : ℤ) else 0)

/-- A transfer moved exactly an amount, and nothing else. -/
def Moves
    (payer payee : Account)
    (amount : ℕ)
    (before after : Account → ℕ) : Prop :=
  ∀ account,
    (after account : ℤ) = before account + change payer payee amount account

/-- The balances after a transfer that the payer can afford. -/
def moved
    (payer payee : Account)
    (amount : ℕ)
    (balances : Account → ℕ) : Account → ℕ :=
  let paid := Function.update balances payer (balances payer - amount)
  Function.update paid payee (paid payee + amount)

section Changes

variable
    {payer payee : Account}
    {amount : ℕ}
    {before after : Account → ℕ}

/-- Paying oneself changes nothing. -/
@[simp] theorem change_self
    (account : Account) :
    change payer payer amount account = 0 := by
  simp [change]

/-- Paying nothing changes nothing. -/
@[simp] theorem change_zero
    (account : Account) :
    change payer payee 0 account = 0 := by
  simp [change]

/-- The payer loses the amount, unless the payer is paid. -/
theorem change_payer
    (payer payee : Account)
    (amount : ℕ) :
    change payer payee amount payer =
      (if payee = payer then (amount : ℤ) else 0) - amount := by
  simp [change, eq_comm]

/-- Someone else who is paid gains the amount. -/
theorem change_payee_of_ne
    (notSelf : payee ≠ payer) :
    change payer payee amount payee = amount := by
  simp [change, notSelf]

/-- No transfer enriches its payer. -/
theorem change_payer_nonpos
    (payer payee : Account)
    (amount : ℕ) :
    change payer payee amount payer ≤ 0 := by
  rw [change_payer]
  split
  · simp
  · simp

/-- A nonzero transfer leaves its payer the same only if it is paid. -/
theorem change_payer_eq_zero_iff
    (positive : 0 < amount) :
    change payer payee amount payer = 0 ↔ payee = payer := by
  rw [change_payer]
  by_cases isPayer : payee = payer
  · simp [isPayer]
  · simp only [isPayer, ↓reduceIte, iff_false]
    omega

/-- An unpaid transfer to oneself, or of nothing, might as well be paid. -/
theorem change_of_answer
    {answer : Bool}
    (unpaid : answer = false → payee = payer ∨ amount = 0)
    (account : Account) :
    (if answer then change payer payee amount account else 0) =
      change payer payee amount account := by
  cases answer with
  | true =>
      rfl
  | false =>
      rcases unpaid rfl with toSelf | isZero
      · simp [toSelf]
      · simp [isZero]

/-- A transfer takes no more than its amount from its payer. -/
theorem Moves.le_add_amount
    (moves : Moves payer payee amount before after) :
    before payer ≤ after payer + amount := by
  have atPayer := moves payer
  rw [change_payer] at atPayer
  split at atPayer
  · omega
  · omega

/-- An affordable transfer moves exactly its amount. -/
theorem moved_moves
    (affordable : amount ≤ before payer) :
    Moves payer payee amount before (moved payer payee amount before) := by
  intro account
  by_cases isPayee : account = payee
  · subst isPayee
    by_cases isPayer : account = payer
    · subst isPayer
      simp [moved, change, affordable]
    · simp [moved, change, isPayer]
  · by_cases isPayer : account = payer
    · subst isPayer
      simp only [moved, change, Function.update_of_ne isPayee,
        Function.update_self, isPayee, ↓reduceIte]
      omega
    · simp [moved, change, isPayee, isPayer]

end Changes

end Transfers
