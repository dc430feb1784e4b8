import StarkCash.ProverRuns

namespace StarkCash.Zkp

/-!
# Interleaved calls

Calls of `generate_proof` share one temporary directory and are interleaved
step by step.  Calls that read different clock values touch different files,
so each of them answers as if it ran alone, with what is computed from its own
input.  Calls that read the same value share their files, and one of them can
return what is computed from the input of another.
-/

open SharedStore (Script Store System attempt)

section Results

/-- One call: a prover, what happens outside of it, and its input. -/
structure Call where
  prover : ZkProver
  external : External
  input : ProofInput

/-- What a call returns, if it returns. -/
abbrev Returned : Type :=
  Except Panic (Except String (Proof × PublicSignals))

/-- The steps of a call. -/
def Call.script
    (tempDir : Path)
    (call : Call) : Script Path ByteArray Returned :=
  generateProof call.prover call.external tempDir call.input

/-- The proof and the public signals that are computed from an input file. -/
inductive Computes
    (prover : ZkProver)
    (external : External)
    (content : ByteArray) : Proof × PublicSignals → Prop where
  | computed
      {wasmDir : Path}
      {witness proofFile publicFile : ByteArray}
      {proofJson publicJson : String}
      {proof : Proof}
      {publicSignals : PublicSignals}
      (hasParent : parent prover.wasmPath = some wasmDir)
      (generated :
        (witnessRun prover external wasmDir (some content)).success = true)
      (witnessWritten :
        (witnessRun prover external wasmDir (some content)).witness =
          some witness)
      (proved :
        (external.rapidsnark prover.zkeyPath (some witness)).success = true)
      (proofWritten :
        (external.rapidsnark prover.zkeyPath (some witness)).proof =
          some proofFile)
      (publicWritten :
        (external.rapidsnark prover.zkeyPath (some witness)).publicSignals =
          some publicFile)
      (proofRead : external.readProof (some proofFile) = .ok proofJson)
      (proofParsed : external.parseProof proofJson = .ok proof)
      (publicRead : external.readPublic (some publicFile) = .ok publicJson)
      (publicParsed :
        external.parsePublic publicJson = .ok publicSignals) :
      Computes prover external content (proof, publicSignals)

/-- An input file determines what is computed from it. -/
theorem Computes.unique
    {prover : ZkProver}
    {external : External}
    {content : ByteArray}
    {first second : Proof × PublicSignals}
    (computes : Computes prover external content first)
    (other : Computes prover external content second) :
    first = second := by
  obtain ⟨hasParent, _, witnessWritten, _, proofWritten, publicWritten,
    proofRead, proofParsed, publicRead, publicParsed⟩ := computes
  obtain ⟨hasParent', _, witnessWritten', _, proofWritten', publicWritten',
    proofRead', proofParsed', publicRead', publicParsed'⟩ := other
  rw [hasParent] at hasParent'
  cases hasParent'
  rw [witnessWritten] at witnessWritten'
  cases witnessWritten'
  rw [proofWritten] at proofWritten'
  cases proofWritten'
  rw [publicWritten] at publicWritten'
  cases publicWritten'
  rw [proofRead] at proofRead'
  cases proofRead'
  rw [proofParsed] at proofParsed'
  cases proofParsed'
  rw [publicRead] at publicRead'
  cases publicRead'
  rw [publicParsed] at publicParsed'
  cases publicParsed'
  rfl

/-- The output is computed from the call's own input. -/
def Call.Owns
    (call : Call)
    (output : Proof × PublicSignals) : Prop :=
  ∃ inputJson,
    call.external.serialize call.input = .ok inputJson ∧
      Computes call.prover call.external inputJson.toUTF8 output

/-- Programs that succeed write their output files. -/
structure External.WritesOutputs (external : External) : Prop where
  witness :
    ∀ generateWitnessJs wasmPath found,
      (external.node generateWitnessJs wasmPath found).success = true →
      ∃ content,
        (external.node generateWitnessJs wasmPath found).witness =
          some content
  proof :
    ∀ zkeyPath found,
      (external.rapidsnark zkeyPath found).success = true →
      ∃ content,
        (external.rapidsnark zkeyPath found).proof = some content
  publicSignals :
    ∀ zkeyPath found,
      (external.rapidsnark zkeyPath found).success = true →
      ∃ content,
        (external.rapidsnark zkeyPath found).publicSignals = some content

/-- A witness that was written is what rapidsnark finds. -/
theorem rapidsnarkRun_afterNode
    {files : TempFiles}
    {prover : ZkProver}
    {external : External}
    {store : Store Path ByteArray}
    {wasmDir : Path}
    {content witness : ByteArray}
    (written : store (files.path .input) = some content)
    (witnessWritten :
      (witnessRun prover external wasmDir (some content)).witness =
        some witness) :
    rapidsnarkRun files prover external
        (afterNode files prover external wasmDir store) =
      external.rapidsnark prover.zkeyPath (some witness) := by
  have found :
      afterNode files prover external wasmDir store (files.path .witness) =
        some witness := by
    rw [afterNode, written, witnessWritten]
    exact Function.update_self ..
  rw [rapidsnarkRun, found]

/-- Outputs that were written are what stands in their files. -/
theorem afterRapidsnark_outputs
    {files : TempFiles}
    {prover : ZkProver}
    {external : External}
    {store : Store Path ByteArray}
    {proofFile publicFile : ByteArray}
    (proofWritten :
      (rapidsnarkRun files prover external store).proof = some proofFile)
    (publicWritten :
      (rapidsnarkRun files prover external store).publicSignals =
        some publicFile) :
    afterRapidsnark files prover external store (files.path .proof) =
        some proofFile ∧
      afterRapidsnark files prover external store
          (files.path .publicSignals) =
        some publicFile := by
  have differs : files.path .proof ≠ files.path .publicSignals := by
    intro same
    cases files.distinct same
  unfold afterRapidsnark
  rw [proofWritten, publicWritten]
  constructor
  · exact
      (Function.update_of_ne differs _ _).trans (Function.update_self ..)
  · exact Function.update_self ..

/-- Steps that succeed compute the output from the written input. -/
theorem StepsSucceed.computes
    {files : TempFiles}
    {prover : ZkProver}
    {external : External}
    {store : Store Path ByteArray}
    {content : ByteArray}
    {output : Proof × PublicSignals}
    (succeed : StepsSucceed files prover external store output)
    (writes : external.WritesOutputs)
    (written : store (files.path .input) = some content) :
    Computes prover external content output := by
  obtain ⟨hasParent, _, generated, _, proved, proofRead, proofParsed,
    publicRead, publicParsed⟩ := succeed
  rw [written] at generated
  obtain ⟨witness, witnessWritten⟩ := writes.witness _ _ _ generated
  have ran := rapidsnarkRun_afterNode written witnessWritten
  rw [ran] at proved
  obtain ⟨proofFile, proofWritten⟩ := writes.proof _ _ proved
  obtain ⟨publicFile, publicWritten⟩ := writes.publicSignals _ _ proved
  obtain ⟨proofFound, publicFound⟩ :=
    afterRapidsnark_outputs (by rw [ran, proofWritten])
      (by rw [ran, publicWritten])
  rw [proofFound] at proofRead
  rw [publicFound] at publicRead
  exact
    .computed hasParent generated witnessWritten proved proofWritten
      publicWritten proofRead proofParsed publicRead publicParsed

/-- What is computed from a written input is what the steps succeed with. -/
theorem Computes.stepsSucceed
    {files : TempFiles}
    {prover : ZkProver}
    {external : External}
    {store : Store Path ByteArray}
    {content : ByteArray}
    {output : Proof × PublicSignals}
    (computes : Computes prover external content output)
    (nodeLaunched : external.launchNode = .ok ())
    (rapidsnarkLaunched : external.launchRapidsnark = .ok ())
    (written : store (files.path .input) = some content) :
    StepsSucceed files prover external store output := by
  obtain ⟨hasParent, generated, witnessWritten, proved, proofWritten,
    publicWritten, proofRead, proofParsed, publicRead, publicParsed⟩ :=
    computes
  have ran := rapidsnarkRun_afterNode written witnessWritten
  obtain ⟨proofFound, publicFound⟩ :=
    afterRapidsnark_outputs (by rw [ran, proofWritten])
      (by rw [ran, publicWritten])
  refine
    .succeed hasParent nodeLaunched ?_ rapidsnarkLaunched ?_ ?_ proofParsed ?_
      publicParsed
  · rw [written]
    exact generated
  · rw [ran]
    exact proved
  · rw [proofFound]
    exact proofRead
  · rw [publicFound]
    exact publicRead

/-- A call that proves an output has succeeded with it. -/
theorem stepsSucceed_of_prove
    {files : TempFiles}
    {prover : ZkProver}
    {external : External}
    {store after : Store Path ByteArray}
    {output : Proof × PublicSignals}
    (proved :
      attempt (prove files prover external) store = (.ok output, after)) :
    StepsSucceed files prover external store output := by
  unfold prove at proved
  simp only [SharedStore.attempt_bind_eq_ok, attempt_return] at proved
  obtain ⟨computed, middle, computes, _, _, _, rfl, _⟩ := proved
  exact (exists_attempt_compute computed).mp ⟨middle, computes⟩

/-- A call that runs alone and returns an output computes it from its input. -/
theorem Call.owns_of_run
    {tempDir : Path}
    {call : Call}
    {store : Store Path ByteArray}
    {output : Proof × PublicSignals}
    (writes : call.external.WritesOutputs)
    (returned : ((call.script tempDir).run store).1 = .ok (.ok output)) :
    call.Owns output := by
  unfold Call.script at returned
  by_cases before : call.external.clock < 0
  · unfold generateProof at returned
    rw [if_pos before] at returned
    cases returned
  · rw [run_generateProof before] at returned
    have succeeded := Except.ok.inj returned
    cases serialised : call.external.serialize call.input with
    | error error =>
        rw [attempt_generateProofIn_notSerialised serialised] at succeeded
        cases succeeded
    | ok inputJson =>
        cases outcome : call.external.write with
        | failed error leaves =>
            rw [attempt_generateProofIn_failed serialised outcome]
              at succeeded
            cases succeeded
        | written =>
            rw [attempt_generateProofIn_written serialised outcome]
              at succeeded
            have succeed :=
              stepsSucceed_of_prove (Prod.ext succeeded rfl)
            exact
              ⟨inputJson, serialised,
                succeed.computes writes (Function.update_self ..)⟩

end Results

section Regions

variable
    {files : TempFiles}
    {prover : ZkProver}
    {external : External}
    {input : ProofInput}

/-- The paths of the files. -/
def TempFiles.region (files : TempFiles) : Set Path :=
  Set.range files.path

/-- Each of the files is one of them. -/
theorem TempFiles.path_mem
    (files : TempFiles)
    (kind : FileKind) :
    files.path kind ∈ files.region :=
  ⟨kind, rfl⟩

/-- Removing a file accesses it. -/
theorem removeFile_within
    (kind : FileKind) :
    Script.Within files.region
      (ExceptT.run (removeFile external (files.path kind))) := by
  unfold removeFile
  split
  · exact ⟨files.path_mem kind, fun _ => trivial⟩
  · exact trivial

/-- Writing the input accesses its file. -/
theorem writeInput_within
    (inputJson : String) :
    Script.Within files.region
      (ExceptT.run (writeInput files external inputJson)) := by
  unfold writeInput
  split
  · exact ⟨files.path_mem .input, fun _ => trivial⟩
  · exact ⟨files.path_mem .input, fun _ => trivial⟩

/-- The steps of a call access its files only. -/
theorem generateProofIn_within :
    Script.Within files.region
      (ExceptT.run (generateProofIn files prover external input)) := by
  have computes :
      Script.Within files.region
        (ExceptT.run (compute files prover external)) :=
    compute_accesses (fun kind => files.path_mem kind)
      fun kind _ _ => files.path_mem kind
  have cleans :
      Script.Within files.region
        (ExceptT.run (cleanUp files external)) := by
    refine (removeFile_within .input).attempt_bind fun _ => ?_
    refine (removeFile_within .witness).attempt_bind fun _ => ?_
    refine (removeFile_within .proof).attempt_bind fun _ => ?_
    exact removeFile_within .publicSignals
  refine (orReturn_accesses _ _).attempt_bind fun inputJson => ?_
  refine (writeInput_within inputJson).attempt_bind fun _ => ?_
  refine computes.attempt_bind fun _ => ?_
  exact cleans.attempt_bind fun _ => trivial

/-- The paths that a call touches: none before the epoch. -/
def Call.region
    (tempDir : Path)
    (call : Call) : Set Path :=
  if call.external.clock < 0 then
    ∅
  else
    (callFiles tempDir call.external).region

/-- A call stays within its paths. -/
theorem Call.script_within
    (tempDir : Path)
    (call : Call) :
    (call.script tempDir).Within (call.region tempDir) := by
  unfold Call.script Call.region generateProof
  split
  · exact trivial
  · refine Script.Accesses.bind generateProofIn_within ?_
    intro result
    exact trivial

/-- Calls that read different clock values touch different paths. -/
theorem Call.region_disjoint
    (tempDir : Path)
    {call other : Call}
    (differs : call.external.clock ≠ other.external.clock) :
    Disjoint (call.region tempDir) (other.region tempDir) := by
  unfold Call.region
  split
  · exact Set.empty_disjoint _
  · next since =>
      split
      · exact Set.disjoint_empty _
      · next otherSince =>
          rw [Set.disjoint_left]
          rintro path ⟨kind, rfl⟩ ⟨otherKind, same⟩
          have names := fileName_inj (join_injective tempDir same)
          have clocks := names.2
          omega

end Regions

section Interleavings

variable {Caller : Type}

/-- Calls at their start, with the files that exist then. -/
def start
    (tempDir : Path)
    (calls : Caller → Call)
    (store : Store Path ByteArray) :
    System Caller Path ByteArray Returned where
  scripts := fun caller => (calls caller).script tempDir
  store := store

/-- Calls that read different clock values are separated. -/
theorem start_separated
    (tempDir : Path)
    {calls : Caller → Call}
    (store : Store Path ByteArray)
    (differ :
      ∀ caller other,
        caller ≠ other →
        (calls caller).external.clock ≠ (calls other).external.clock) :
    (start tempDir calls store).Separated fun caller =>
      (calls caller).region tempDir := by
  constructor
  · intro caller
    exact Call.script_within tempDir (calls caller)
  · intro caller other different
    exact Call.region_disjoint tempDir (differ caller other different)

/--
In every interleaving of calls that read different clock values, a call that
returns a proof and public signals returns those computed from its own input.
-/
theorem interleaved_owns
    [DecidableEq Caller]
    (tempDir : Path)
    (calls : Caller → Call)
    (store : Store Path ByteArray)
    (writes : ∀ caller, (calls caller).external.WritesOutputs)
    (differ :
      ∀ caller other,
        caller ≠ other →
        (calls caller).external.clock ≠ (calls other).external.clock)
    (schedule : List Caller)
    (caller : Caller)
    (output : Proof × PublicSignals)
    (returned :
      ((start tempDir calls store).exec schedule).scripts caller =
        .done (.ok (.ok output))) :
    (calls caller).Owns output := by
  have separated := start_separated tempDir store differ
  have alone := separated.answer_eq returned
  exact Call.owns_of_run (writes caller) alone

end Interleavings

section Mixing

/-- The clean-up does not fail. -/
theorem exists_attempt_cleanUp
    (files : TempFiles)
    (external : External)
    (store : Store Path ByteArray) :
    ∃ after, attempt (cleanUp files external) store = (.ok (), after) := by
  have removed :
      ∀ (path : Path) (store : Store Path ByteArray),
        ∃ after,
          attempt (removeFile external path) store = (.ok (), after) := by
    intro path store
    unfold removeFile
    split
    · exact ⟨_, rfl⟩
    · exact ⟨_, rfl⟩
  obtain ⟨first, firstRemoved⟩ := removed (files.path .input) store
  obtain ⟨second, secondRemoved⟩ := removed (files.path .witness) first
  obtain ⟨third, thirdRemoved⟩ := removed (files.path .proof) second
  obtain ⟨last, lastRemoved⟩ := removed (files.path .publicSignals) third
  refine ⟨last, ?_⟩
  unfold cleanUp
  rw [SharedStore.attempt_bind_of_ok firstRemoved,
    SharedStore.attempt_bind_of_ok secondRemoved,
    SharedStore.attempt_bind_of_ok thirdRemoved, lastRemoved]

/-- Steps that succeed prove their output. -/
theorem StepsSucceed.prove
    {files : TempFiles}
    {prover : ZkProver}
    {external : External}
    {store : Store Path ByteArray}
    {output : Proof × PublicSignals}
    (succeed : StepsSucceed files prover external store output) :
    (attempt (Zkp.prove files prover external) store).1 = .ok output := by
  obtain ⟨middle, computed⟩ := (exists_attempt_compute output).mpr succeed
  obtain ⟨after, cleaned⟩ := exists_attempt_cleanUp files external middle
  exact congrArg Prod.fst (attempt_prove_of_ok computed cleaned)

/-- A call that runs alone returns what is computed from its input. -/
theorem Call.run_of_computes
    {tempDir : Path}
    {call : Call}
    {store : Store Path ByteArray}
    {inputJson : String}
    {output : Proof × PublicSignals}
    (since : ¬ call.external.clock < 0)
    (serialised : call.external.serialize call.input = .ok inputJson)
    (written : call.external.write = .written)
    (nodeLaunched : call.external.launchNode = .ok ())
    (rapidsnarkLaunched : call.external.launchRapidsnark = .ok ())
    (computes :
      Computes call.prover call.external inputJson.toUTF8 output) :
    ((call.script tempDir).run store).1 = .ok (.ok output) := by
  let files := callFiles tempDir call.external
  let begun :=
    Function.update store (files.path .input) (some inputJson.toUTF8)
  have succeed :
      StepsSucceed files call.prover call.external begun output :=
    computes.stepsSucceed nodeLaunched rapidsnarkLaunched
      (Function.update_self ..)
  unfold Call.script
  rw [run_generateProof since,
    attempt_generateProofIn_written serialised written, succeed.prove]

/-- What a call has left to do behind the written input. -/
def Call.rest
    (tempDir : Path)
    (call : Call) : Script Path ByteArray Returned :=
  (prove (callFiles tempDir call.external) call.prover call.external).run >>=
    fun result => return .ok result

/-- The first step of a call writes its input. -/
theorem Call.script_step
    {tempDir : Path}
    {call : Call}
    {inputJson : String}
    (since : ¬ call.external.clock < 0)
    (serialised : call.external.serialize call.input = .ok inputJson)
    (written : call.external.write = .written)
    (store : Store Path ByteArray) :
    (call.script tempDir).step store =
      (call.rest tempDir,
        Function.update store ((callFiles tempDir call.external).path .input)
          (some inputJson.toUTF8)) := by
  unfold Call.script generateProof generateProofIn writeInput
  rw [if_neg since, serialised, written]
  rfl

variable
    {Caller : Type}
    [DecidableEq Caller]

/--
A call that writes its input between the write and the first read of another
call with the same clock value makes the other return what is computed from
its own input file instead.
-/
theorem exists_exec_mixing
    (tempDir : Path)
    (calls : Caller → Call)
    (store : Store Path ByteArray)
    {caller other : Caller}
    {inputJson otherJson : String}
    {output : Proof × PublicSignals}
    (different : caller ≠ other)
    (sameClock :
      (calls caller).external.clock = (calls other).external.clock)
    (since : ¬ (calls caller).external.clock < 0)
    (serialised :
      (calls caller).external.serialize (calls caller).input =
        .ok inputJson)
    (written : (calls caller).external.write = .written)
    (otherSerialised :
      (calls other).external.serialize (calls other).input = .ok otherJson)
    (otherWritten : (calls other).external.write = .written)
    (nodeLaunched : (calls caller).external.launchNode = .ok ())
    (rapidsnarkLaunched : (calls caller).external.launchRapidsnark = .ok ())
    (computes :
      Computes (calls caller).prover (calls caller).external
        otherJson.toUTF8 output) :
    ∃ count,
      ((start tempDir calls store).exec
            (caller :: other :: List.replicate count caller)).scripts caller =
        .done (.ok (.ok output)) := by
  let files := callFiles tempDir (calls caller).external
  let begun := (start tempDir calls store).step caller
  let mixed := begun.step other
  have first :
      ((calls caller).script tempDir).step store =
        ((calls caller).rest tempDir,
          Function.update store (files.path .input)
            (some inputJson.toUTF8)) :=
    Call.script_step since serialised written store
  have second :
      ((calls other).script tempDir).step begun.store =
        ((calls other).rest tempDir,
          Function.update begun.store
            ((callFiles tempDir (calls other).external).path .input)
            (some otherJson.toUTF8)) :=
    Call.script_step (sameClock ▸ since) otherSerialised otherWritten _
  have left : mixed.scripts caller = (calls caller).rest tempDir := by
    rw [System.step_scripts_of_ne begun different, System.step_scripts_self]
    exact congrArg Prod.fst first
  have notStarted : begun.scripts other = (calls other).script tempDir :=
    System.step_scripts_of_ne _ different.symm
  have overwritten :
      mixed.store (files.path .input) = some otherJson.toUTF8 := by
    have shared :
        callFiles tempDir (calls other).external = files := by
      unfold callFiles
      rw [← sameClock]
      rfl
    rw [System.step_store, notStarted, second, shared]
    exact Function.update_self ..
  have proved :
      (attempt (prove files (calls caller).prover (calls caller).external)
          mixed.store).1 =
        .ok output :=
    (computes.stepsSucceed nodeLaunched rapidsnarkLaunched overwritten).prove
  obtain ⟨count, ended, _⟩ := mixed.exec_alone caller
  refine ⟨count, ?_⟩
  change (mixed.exec (List.replicate count caller)).scripts caller = _
  rw [ended, left, Call.rest, Script.run_bind]
  change Script.done (Except.ok _) = _
  rw [← proved]
  rfl

end Mixing

section Samples

/-- A text that was written is read back. -/
theorem readToString_toUTF8
    (text : String) :
    readToString (some text.toUTF8) = .ok text := by
  have decoded : String.fromUTF8? text.toUTF8 = some text :=
    dif_pos text.isValidUTF8
  unfold readToString
  simp only [decoded]

/-- A call whose programs copy its secret. -/
def sampleCall (clock : ℤ) (secret : String) : Call where
  prover := sampleProver
  external := { copying with clock := clock }
  input := sampleInput secret

/-- A secret copied into a proof and public signals. -/
def sampleOutput (secret : String) : Proof × PublicSignals :=
  (⟨[secret], [], []⟩, ⟨secret, secret, secret, secret, secret, secret⟩)

/-- The copies write their output files. -/
theorem sampleCall_writesOutputs
    (clock : ℤ)
    (secret : String) :
    (sampleCall clock secret).external.WritesOutputs where
  witness := fun _ _ _ succeeded => Option.isSome_iff_exists.mp succeeded
  proof := fun _ _ succeeded => Option.isSome_iff_exists.mp succeeded
  publicSignals := fun _ _ succeeded =>
    Option.isSome_iff_exists.mp succeeded

/-- What is computed from the input file with a secret copies that secret. -/
theorem sampleCall_computes
    (clock : ℤ)
    (own secret : String) :
    Computes (sampleCall clock own).prover (sampleCall clock own).external
      secret.toUTF8 (sampleOutput secret) := by
  have hasParent : parent sampleProver.wasmPath = some "build" := by decide
  exact
    .computed hasParent rfl rfl rfl rfl rfl (readToString_toUTF8 secret) rfl
      (readToString_toUTF8 secret) rfl

/-- Two calls that read different clock values. -/
def differentTimes (caller : Bool) : Call :=
  bif caller then sampleCall 1 "2" else sampleCall 0 "1"

/-- A call that runs behind a step of the other returns its own secret. -/
theorem interleaved_owns_differentTimes :
    ∃ count,
      ((start "/tmp" differentTimes fun _ => none).exec
              (true :: List.replicate count false)).scripts false =
          .done (.ok (.ok (sampleOutput "1"))) ∧
        (differentTimes false).Owns (sampleOutput "1") := by
  let stepped := (start "/tmp" differentTimes fun _ => none).step true
  have alone :
      (((differentTimes false).script "/tmp").run stepped.store).1 =
        .ok (.ok (sampleOutput "1")) :=
    Call.run_of_computes (by decide) rfl rfl rfl rfl
      (sampleCall_computes 0 "1" "1")
  obtain ⟨count, ended, _⟩ := stepped.exec_alone false
  have returned := ended.trans (congrArg Script.done alone)
  refine ⟨count, returned, ?_⟩
  refine
    interleaved_owns "/tmp" differentTimes (fun _ => none) ?_ ?_
      (true :: List.replicate count false) false (sampleOutput "1") returned
  · intro caller
    cases caller with
    | false => exact sampleCall_writesOutputs 0 "1"
    | true => exact sampleCall_writesOutputs 1 "2"
  · decide

/-- Two calls that read the same clock value. -/
def sameTime (caller : Bool) : Call :=
  bif caller then sampleCall 0 "2" else sampleCall 0 "1"

/-- The call with one secret returns the other secret. -/
theorem interleaved_mixes :
    (∀ caller, (sameTime caller).external.WritesOutputs) ∧
      (∃ count,
        ((start "/tmp" sameTime fun _ => none).exec
              (false :: true :: List.replicate count false)).scripts false =
          .done (.ok (.ok (sampleOutput "2")))) ∧
      ¬ (sameTime false).Owns (sampleOutput "2") := by
  refine ⟨?_, ?_, ?_⟩
  · intro caller
    cases caller with
    | false => exact sampleCall_writesOutputs 0 "1"
    | true => exact sampleCall_writesOutputs 0 "2"
  · exact
      exists_exec_mixing "/tmp" sameTime (fun _ => none) (by decide) rfl
        (by decide) rfl rfl rfl rfl rfl rfl (sampleCall_computes 0 "1" "2")
  · rintro ⟨inputJson, serialised, computes⟩
    cases serialised
    have same := computes.unique (sampleCall_computes 0 "1" "1")
    exact absurd same (by decide)

end Samples

end StarkCash.Zkp
