import StarkCash.FrontierClimb
import StarkCash.TreeOpening
import StarkCash.HistoryRing
import StarkCash.ReentrantCode
import StarkCash.Imperative
import StarkCash.Words
import StarkCash.RustMerkleTree
import StarkCash.RustTreeInvariant
import StarkCash.RustTreeRuns
import StarkCash.RustPoseidon
import StarkCash.WithdrawCircuit
import StarkCash.NoteOpening
import StarkCash.CairoMerkleTree
import StarkCash.CairoTreeInvariant
import StarkCash.IncrementalRoots
import StarkCash.GhostPool
import StarkCash.GhostPoolCalls
import StarkCash.PoolLedger
import StarkCash.ReentrantRuns
import StarkCash.RootHistory
import StarkCash.SpentOnce
import StarkCash.TokenRuns
import StarkCash.ValueConservation
import StarkCash.PaymentAnswers
import StarkCash.StructuralProofs
import StarkCash.SoundVerifier
import StarkCash.Solvency
import StarkCash.Framing
import StarkCash.RustProof
import StarkCash.ProofCodec
import StarkCash.ProofBinding
import StarkCash.PoolValidators
import StarkCash.LibraryVerifier
import StarkCash.CurveCheck
import StarkCash.ExternalVerifier
import StarkCash.VerifierCalldata
import StarkCash.VerdictAgreement
import StarkCash.RootCommitment
import StarkCash.CircomlibPoseidon
import StarkCash.HashDomains
import StarkCash.Redeemable
import StarkCash.ProofCanonicity
import StarkCash.CircomMimc
import StarkCash.RustMimc
import StarkCash.RustHex
import StarkCash.SharedStore
import StarkCash.ZkProver
import StarkCash.ProverRuns
import StarkCash.BaseField
import StarkCash.ProverInterleaving
import StarkCash.VkCombination
import StarkCash.SignedWindows
import StarkCash.ThreadPool
import StarkCash.ThreadPoolRuns
import StarkCash.ThreadPoolResults
import StarkCash.CurveArithmetic
import StarkCash.CurveGroup
import StarkCash.ByteMemory
import StarkCash.GroupOperations
import StarkCash.NafMultiplication
import StarkCash.MultiScalar
import StarkCash.MsmSchedules
import StarkCash.CurveMultiples
import StarkCash.Fft
import StarkCash.FftSchedules
import StarkCash.CubicAlgebra
import StarkCash.EvaluationDomain
import StarkCash.Groth16Prover
import StarkCash.Groth16Setup
import StarkCash.TowerArithmetic
import StarkCash.TowerFields
import StarkCash.FinalExponentiation
import StarkCash.BinFile
import StarkCash.FileLayout
