import StarkCash.PoseidonConstants
import StarkCash.WithdrawCircuit

namespace StarkCash.Circuit

/-!
# Circomlib's Poseidon of two inputs

Embedding of the templates of `poseidon.circom` that `Poseidon(2)` is made of.
Every signal is assigned with `<==`, so a template is the function from its
inputs to its outputs.  A state is the list of its `t` signals.
-/

section Templates

/-- The power map (`Sigma`). -/
def sigma (input : Fr) : Fr :=
  let in2 := input * input
  let in4 := in2 * in2
  in4 * input

/-- Add the round constants from an index on (`Ark`). -/
def ark
    (t : ℕ)
    (c : List ℕ)
    (r : ℕ)
    (input : List Fr) : List Fr :=
  (List.range t).map fun i => input.getD i 0 + (c.getD (i + r) 0 : ℕ)

/-- The loop `lc += coefficient(j) * in[j]`. -/
def linearCombination
    (t : ℕ)
    (coefficient : ℕ → ℕ)
    (input : List Fr) : Fr :=
  (List.range t).foldl
    (fun lc j => lc + (coefficient j : ℕ) * input.getD j 0)
    0

/-- Multiply by a matrix (`Mix`). -/
def mix
    (t : ℕ)
    (m : List (List ℕ))
    (input : List Fr) : List Fr :=
  (List.range t).map fun i =>
    linearCombination t (fun j => (m.getD j []).getD i 0) input

/-- One output of the multiplication by a matrix (`MixLast`). -/
def mixLast
    (t : ℕ)
    (m : List (List ℕ))
    (s : ℕ)
    (input : List Fr) : Fr :=
  linearCombination t (fun j => (m.getD j []).getD s 0) input

/-- Multiply by the sparse matrix of a partial round (`MixS`). -/
def mixS
    (t : ℕ)
    (s : List ℕ)
    (r : ℕ)
    (input : List Fr) : List Fr :=
  (List.range t).map fun i =>
    if i = 0 then
      linearCombination t (fun j => s.getD ((t * 2 - 1) * r + j) 0) input
    else
      input.getD i 0 +
        input.getD 0 0 * (s.getD ((t * 2 - 1) * r + t + i - 1) 0 : ℕ)

/-- A full round: the power map, the round constants and a matrix. -/
def fullRound
    (t : ℕ)
    (m : List (List ℕ))
    (r : ℕ)
    (state : List Fr) : List Fr :=
  mix t m (ark t poseidonC r (state.map sigma))

/-- A partial round: the power map on the first signal, and its matrix. -/
def partialRound
    (t offset r : ℕ)
    (state : List Fr) : List Fr :=
  mixS t poseidonS r
    ((List.range t).map fun j =>
      if j = 0 then
        sigma (state.getD 0 0) + (poseidonC.getD (offset + r) 0 : ℕ)
      else
        state.getD j 0)

/-- Numbers of partial rounds by state size (`N_ROUNDS_P`). -/
def nRoundsPTable : List ℕ :=
  [56, 57, 56, 60, 60, 63, 64, 63, 60, 66, 60, 65, 70, 60, 64, 68]

/-- One output of the permutation of two inputs (`PoseidonEx(2, 1)`). -/
def poseidonEx (initialState : Fr) (inputs : List Fr) : Fr :=
  let t := inputs.length + 1
  let nRoundsF := 8
  let nRoundsP := nRoundsPTable.getD (t - 2) 0
  let state := ark t poseidonC 0 (initialState :: inputs)
  let state :=
    (List.range (nRoundsF / 2 - 1)).foldl
      (fun state r => fullRound t poseidonM ((r + 1) * t) state)
      state
  let state := fullRound t poseidonP (nRoundsF / 2 * t) state
  let state :=
    (List.range nRoundsP).foldl
      (fun state r => partialRound t ((nRoundsF / 2 + 1) * t) r state)
      state
  let state :=
    (List.range (nRoundsF / 2 - 1)).foldl
      (fun state r =>
        fullRound t poseidonM
          ((nRoundsF / 2 + 1) * t + nRoundsP + r * t) state)
      state
  mixLast t poseidonM 0 (state.map sigma)

/-- The template `Poseidon(2)`. -/
def poseidonTwo (left right : Fr) : Fr :=
  poseidonEx 0 [left, right]

end Templates

section Hasher

/-- A permutation that is circomlib's `Poseidon(2)` on two inputs. -/
def IsPoseidonTwo (circomlib : List Fr → Fr) : Prop :=
  ∀ left right, circomlib [left, right] = poseidonTwo left right

/-- A satisfied hasher carries circomlib's hash of its sides. -/
theorem HashLeftRight.Constraints.hash_eq_poseidonTwo
    {circomlib : List Fr → Fr}
    {component : HashLeftRight}
    (isPoseidon : IsPoseidonTwo circomlib)
    (satisfied : component.Constraints circomlib) :
    component.hash = poseidonTwo component.left component.right := by
  rw [satisfied.hash_eq, hashPair, isPoseidon]

/-- The compatibility vector of `poseidon_bn254.cairo`. -/
theorem poseidonTwo_one_two :
    (poseidonTwo 1 2).val =
      0x115cc0f5e7d690413df64c6b9662e9cf2a3617f2743245519e19607a4417189a := by
  decide +kernel

end Hasher

end StarkCash.Circuit
