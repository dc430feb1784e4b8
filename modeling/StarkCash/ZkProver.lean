import StarkCash.Words
import StarkCash.SharedStore

namespace StarkCash.Zkp

/-!
# Proof generation through temporary files

Embedding of `zkp/src/prover.rs`.  `generate_proof` is a script over the files,
which other calls may share.  Everything that happens outside of the process
during a call is a parameter: the clock, the serialiser and the parsers, the
two programs and every failure.  A program reads its input in one step and
then writes its outputs, each in one step.
-/

open SharedStore (Script Store)

section Data

/-- The path of a file. -/
abbrev Path : Type :=
  String

/-- The inputs of the circuit (`ProofInput`). -/
structure ProofInput where
  root : String
  nullifierHash : String
  recipient : String
  relayer : String
  fee : String
  refund : String
  secret : String
  nullifier : String
  pathElements : List String
  pathIndices : List UInt32

/-- The points of a proof (`Proof`). -/
structure Proof where
  piA : List String
  piB : List (List String)
  piC : List String
  deriving DecidableEq

/-- The public signals of a proof (`PublicSignals`). -/
structure PublicSignals where
  root : String
  nullifierHash : String
  recipient : String
  relayer : String
  fee : String
  refund : String
  deriving DecidableEq

/-- The paths of the key and of the circuit (`ZkProver`). -/
structure ZkProver where
  zkeyPath : Path
  wasmPath : Path

end Data

section Paths

/-- `Path::join` with a relative path. -/
def join (base name : Path) : Path :=
  match base.toList.getLast? with
  | none => base ++ name
  | some '/' => base ++ name
  | some _ => base ++ "/" ++ name

/-- The parts of a path without those at its end that name nothing. -/
def trimParts (parts : List (List Char)) : List (List Char) :=
  (parts.reverse.dropWhile fun part => part = [] ∨ part = ['.']).reverse

/-- `Path::parent`. -/
def parent (path : Path) : Option Path :=
  match path.toList.splitOn '/' with
  | [] => none
  | first :: parts =>
      match trimParts parts with
      | [] =>
          if first = [] then
            none
          else
            some ""
      | last :: rest =>
          match trimParts (last :: rest).dropLast with
          | [] =>
              if first = [] then
                some "/"
              else
                some (String.ofList first)
          | kept =>
              some (String.ofList (['/'].intercalate (first :: kept)))

example : parent "build/withdraw.wasm" = some "build" := by decide

example : parent "withdraw.wasm" = some "" := by decide

example : parent "/" = none := by decide

/-- The temporary files of a call. -/
inductive FileKind where
  | input
  | witness
  | proof
  | publicSignals
  deriving DecidableEq

/-- The name of a temporary file. -/
def fileName (kind : FileKind) (timestamp : ℕ) : Path :=
  match kind with
  | .input => s!"proof_input_{timestamp}.json"
  | .witness => s!"witness_{timestamp}.wtns"
  | .proof => s!"proof_{timestamp}.json"
  | .publicSignals => s!"public_{timestamp}.json"

/-- Four different paths for the temporary files. -/
structure TempFiles where
  path : FileKind → Path
  distinct : Function.Injective path

end Paths

section Outside

/-- How `std::fs::write` ends, and what a failed call leaves of the file. -/
inductive WriteOutcome where
  | written
  | failed
      (error : String)
      (leaves : Option ByteArray → Option ByteArray)

/-- What a run of `generate_witness.js` ends with and has written. -/
structure WitnessRun where
  success : Bool
  stderr : String
  witness : Option ByteArray

/-- What a run of `rapidsnark` ends with and has written. -/
structure RapidsnarkRun where
  success : Bool
  stderr : String
  proof : Option ByteArray
  publicSignals : Option ByteArray

/-- What happens outside of the process during a call. -/
structure External where
  clock : ℤ
  serialize : ProofInput → Except String String
  write : WriteOutcome
  launchNode : Except String Unit
  node : Path → Path → Option ByteArray → WitnessRun
  launchRapidsnark : Except String Unit
  rapidsnark : Path → Option ByteArray → RapidsnarkRun
  readProof : Option ByteArray → Except String String
  parseProof : String → Except String Proof
  readPublic : Option ByteArray → Except String String
  parsePublic : String → Except String PublicSignals
  removes : Path → Bool

end Outside

section Naming

/-- What stands before the number in the name of a file. -/
def FileKind.label : FileKind → List Char
  | .input => "proof_input_".toList
  | .witness => "witness_".toList
  | .proof => "proof_".toList
  | .publicSignals => "public_".toList

/-- What stands behind the number in the name of a file. -/
def FileKind.extension : FileKind → List Char
  | .input => ".json".toList
  | .witness => ".wtns".toList
  | .proof => ".json".toList
  | .publicSignals => ".json".toList

/-- The characters of a number between two texts. -/
theorem toList_numbered
    (label extension : String)
    (number : ℕ) :
    (label ++ toString number ++ extension).toList =
      label.toList ++ (Nat.toDigits 10 number ++ extension.toList) := by
  have digits : (toString number).toList = Nat.toDigits 10 number :=
    Nat.toList_repr
  rw [String.toList_append, String.toList_append, digits, List.append_assoc]

/-- The characters of a name. -/
theorem toList_fileName
    (kind : FileKind)
    (timestamp : ℕ) :
    (fileName kind timestamp).toList =
      kind.label ++ (Nat.toDigits 10 timestamp ++ kind.extension) := by
  cases kind with
  | input =>
      exact toList_numbered "proof_input_" ".json" timestamp
  | witness =>
      exact toList_numbered "witness_" ".wtns" timestamp
  | proof =>
      exact toList_numbered "proof_" ".json" timestamp
  | publicSignals =>
      exact toList_numbered "public_" ".json" timestamp

/-- A label holds no digit. -/
theorem FileKind.label_letters
    (kind : FileKind) :
    ∀ char ∈ kind.label, !char.isDigit := by
  apply List.all_eq_true.mp
  cases kind <;> rfl

/-- The label is what stands before the first digit. -/
theorem takeWhile_fileName
    (kind : FileKind)
    (timestamp : ℕ) :
    (fileName kind timestamp).toList.takeWhile (fun char => !char.isDigit) =
      kind.label := by
  have noLetter :
      ∀ digits : List Char,
        digits ≠ [] →
        (∀ char ∈ digits, char.isDigit) →
        (digits ++ kind.extension).takeWhile (fun char => !char.isDigit) =
          [] := by
    intro digits nonempty allDigits
    cases digits with
    | nil =>
        exact absurd rfl nonempty
    | cons digit digits =>
        have isDigit := allDigits digit List.mem_cons_self
        simp [isDigit]
  have digits :
      ∀ char ∈ Nat.toDigits 10 timestamp, char.isDigit := by
    intro char member
    exact Nat.isDigit_of_mem_toDigits (by decide) (by decide) member
  rw [toList_fileName, List.takeWhile_append_of_pos kind.label_letters,
    noLetter _ Nat.toDigits_ne_nil digits, List.append_nil]

/-- Different kinds of files have different labels. -/
theorem FileKind.label_injective :
    Function.Injective FileKind.label := by
  intro first second same
  cases first <;> cases second <;>
    first
      | rfl
      | exact absurd same (by decide)

/-- A number is determined by its digits. -/
theorem toDigits_injective :
    Function.Injective (Nat.toDigits 10) := by
  intro first second same
  rw [← Nat.ofDigitChars_ten_toDigits (n := first), same,
    Nat.ofDigitChars_ten_toDigits]

/-- A name determines the kind of the file and the number. -/
theorem fileName_inj
    {kind kind' : FileKind}
    {timestamp timestamp' : ℕ}
    (same : fileName kind timestamp = fileName kind' timestamp') :
    kind = kind' ∧ timestamp = timestamp' := by
  have sameKind : kind = kind' := by
    apply FileKind.label_injective
    rw [← takeWhile_fileName kind timestamp, same, takeWhile_fileName]
  subst sameKind
  have characters := congrArg String.toList same
  rw [toList_fileName, toList_fileName] at characters
  have digits :=
    List.append_cancel_right (List.append_cancel_left characters)
  exact ⟨rfl, toDigits_injective digits⟩

/-- Joining different names to a path gives different paths. -/
theorem join_injective
    (base : Path) :
    Function.Injective (join base) := by
  intro first second same
  have characters := congrArg String.toList same
  unfold join at characters
  apply String.toList_injective
  split at characters
  · simpa using characters
  · simpa using characters
  · simpa using characters

/-- The four files of a call, named by its timestamp. -/
def tempFiles (tempDir : Path) (timestamp : ℕ) : TempFiles where
  path := fun kind => join tempDir (fileName kind timestamp)
  distinct := fun _ _ same => (fileName_inj (join_injective tempDir same)).1

end Naming

section Steps

/-- A script over the files that may return an error text. -/
abbrev Attempt (Result : Type) : Type :=
  ExceptT String (Script Path ByteArray) Result

/-- `outcome.map_err(|e| format!("{label}{e}"))?`. -/
def orReturn
    {Result : Type}
    (label : String)
    (outcome : Except String Result) : Attempt Result :=
  match outcome with
  | .ok result => return result
  | .error e => throw (label ++ e)

/-- `option.ok_or_else(|| message)?`. -/
def okOrElse
    {Result : Type}
    (option : Option Result)
    (message : String) : Attempt Result :=
  match option with
  | some result => return result
  | none => throw message

/-- What stands in a file, if it exists. -/
def readFile (path : Path) : Attempt (Option ByteArray) :=
  liftM (Script.read path : Script Path ByteArray (Option ByteArray))

/-- Put a content into a file. -/
def writeFile (path : Path) (content : ByteArray) : Attempt Unit :=
  liftM (Script.write path content)

/-- What a program has written, in one step. -/
def writeOutput
    (path : Path)
    (output : Option ByteArray) : Attempt Unit :=
  match output with
  | none => return ()
  | some content => writeFile path content

variable
    (files : TempFiles)
    (prover : ZkProver)
    (external : External)

/-- Write the input (`std::fs::write`). -/
def writeInput (inputJson : String) : Attempt Unit :=
  match external.write with
  | .written => writeFile (files.path .input) inputJson.toUTF8
  | .failed e leaves => do
      liftM (Script.change (files.path .input) leaves)
      throw s!"Write error: {e}"

/-- Generate the witness with node and the wasm. -/
def generateWitness : Attempt Unit := do
  let wasmDir ← okOrElse (parent prover.wasmPath) "Invalid wasm_path"
  let generateWitnessJs := join wasmDir "generate_witness.js"
  orReturn "Failed to execute node for witness generation: "
    external.launchNode
  let found ← readFile (files.path .input)
  let witnessOutput :=
    external.node generateWitnessJs prover.wasmPath found
  writeOutput (files.path .witness) witnessOutput.witness
  if !witnessOutput.success then
    throw s!"Witness generation failed: {witnessOutput.stderr}"

/-- Call rapidsnark. -/
def callRapidsnark : Attempt Unit := do
  orReturn "Rapidsnark execution failed. Did you install it? Error: "
    external.launchRapidsnark
  let found ← readFile (files.path .witness)
  let output := external.rapidsnark prover.zkeyPath found
  writeOutput (files.path .proof) output.proof
  writeOutput (files.path .publicSignals) output.publicSignals
  if !output.success then
    throw s!"Rapidsnark failed: {output.stderr}"

/-- Read and parse the proof. -/
def readProof : Attempt Proof := do
  let found ← readFile (files.path .proof)
  let proofJson ←
    orReturn "Read proof error: " (external.readProof found)
  orReturn "Parse proof error: " (external.parseProof proofJson)

/-- Read and parse the public signals. -/
def readPublic : Attempt PublicSignals := do
  let found ← readFile (files.path .publicSignals)
  let publicJson ←
    orReturn "Read public error: " (external.readPublic found)
  orReturn "Parse public error: " (external.parsePublic publicJson)

/-- `let _ = std::fs::remove_file(path)`. -/
def removeFile (path : Path) : Attempt Unit :=
  if external.removes path then
    liftM (Script.remove path : Script Path ByteArray Unit)
  else
    return ()

/-- Clean up the temporary files. -/
def cleanUp : Attempt Unit := do
  removeFile external (files.path .input)
  removeFile external (files.path .witness)
  removeFile external (files.path .proof)
  removeFile external (files.path .publicSignals)

/-- The steps behind the written input up to the clean-up. -/
def compute : Attempt (Proof × PublicSignals) := do
  generateWitness files prover external
  callRapidsnark files prover external
  let proof ← readProof files external
  let publicSignals ← readPublic files external
  return (proof, publicSignals)

/-- The steps behind the written input. -/
def prove : Attempt (Proof × PublicSignals) := do
  let output ← compute files prover external
  cleanUp files external
  return output

/-- The steps of a call behind the naming of its files. -/
def generateProofIn
    (input : ProofInput) : Attempt (Proof × PublicSignals) := do
  let inputJson ← orReturn "Serialize error: " (external.serialize input)
  writeInput files external inputJson
  prove files prover external

/-- Generate a proof (`generate_proof`). -/
def generateProof
    (tempDir : Path)
    (input : ProofInput) :
    Script Path ByteArray
      (Except Panic (Except String (Proof × PublicSignals))) :=
  if external.clock < 0 then
    return .error ⟨"called `Result::unwrap()` on an `Err` value"⟩
  else do
    let timestamp := external.clock.toNat
    let result ←
      (generateProofIn (tempFiles tempDir timestamp) prover external
        input).run
    return .ok result

end Steps

end StarkCash.Zkp
