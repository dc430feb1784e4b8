import Mathlib.Data.BitVec
import StarkCash.ReentrantRuns

namespace StarkCash

/-!
# The root history

In both implementations the ring of roots is exactly the history of the last
thirty roots, and the inclusion check of `withdraw` is membership in it.
-/

open HistoryRing (Exact)

section Cairo

variable
    {Proof Token : Type}
    {hash : U256 → U256 → U256}
    {world : Cairo.World Proof Token}

end Cairo

section Rust

variable
    {hash : Bytes32 → Bytes32 → Bytes32}
    {leaves roots : List Bytes32}
    {tree : Rust.IncrementalMerkleTree}

end Rust

section History

end History

end StarkCash
