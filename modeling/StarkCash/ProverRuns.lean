import StarkCash.ZkProver

namespace StarkCash.Zkp

/-!
# Runs of a single call

What `generate_proof` leaves in its temporary files.  Behind the written input
every step keeps that file up to the clean-up, which only a call reaches whose
steps all succeed.  Every earlier return leaves the input, with the secret and
the nullifier, where it was written.
-/

open SharedStore (Script Store attempt)

section Outcomes

variable
    (files : TempFiles)
    (prover : ZkProver)
    (external : External)

/-- The run of `generate_witness.js` from a directory. -/
def witnessRun
    (wasmDir : Path)
    (found : Option ByteArray) : WitnessRun :=
  external.node (join wasmDir "generate_witness.js") prover.wasmPath found

/-- The store with an output, if one was written. -/
def leave
    (store : Store Path ByteArray)
    (path : Path)
    (output : Option ByteArray) : Store Path ByteArray :=
  match output with
  | none => store
  | some content => Function.update store path (some content)

/-- The store behind a run of `generate_witness.js`. -/
def afterNode
    (wasmDir : Path)
    (store : Store Path ByteArray) : Store Path ByteArray :=
  leave store (files.path .witness)
    (witnessRun prover external wasmDir (store (files.path .input))).witness

/-- The run of `rapidsnark` on the witness in a store. -/
def rapidsnarkRun (store : Store Path ByteArray) : RapidsnarkRun :=
  external.rapidsnark prover.zkeyPath (store (files.path .witness))

/-- The store behind a run of `rapidsnark`. -/
def afterRapidsnark (store : Store Path ByteArray) : Store Path ByteArray :=
  leave
    (leave store (files.path .proof)
      (rapidsnarkRun files prover external store).proof)
    (files.path .publicSignals)
    (rapidsnarkRun files prover external store).publicSignals

/-- All steps behind the written input succeed, with an output. -/
inductive StepsSucceed
    (store : Store Path ByteArray) :
    Proof × PublicSignals → Prop where
  | succeed
      {wasmDir : Path}
      {proofJson publicJson : String}
      {proof : Proof}
      {publicSignals : PublicSignals}
      (hasParent : parent prover.wasmPath = some wasmDir)
      (nodeLaunched : external.launchNode = .ok ())
      (witnessGenerated :
        (witnessRun prover external wasmDir
          (store (files.path .input))).success = true)
      (rapidsnarkLaunched : external.launchRapidsnark = .ok ())
      (proved :
        (rapidsnarkRun files prover external
          (afterNode files prover external wasmDir store)).success = true)
      (proofRead :
        external.readProof
            (afterRapidsnark files prover external
              (afterNode files prover external wasmDir store)
              (files.path .proof)) =
          .ok proofJson)
      (proofParsed : external.parseProof proofJson = .ok proof)
      (publicRead :
        external.readPublic
            (afterRapidsnark files prover external
              (afterNode files prover external wasmDir store)
              (files.path .publicSignals)) =
          .ok publicJson)
      (publicParsed :
        external.parsePublic publicJson = .ok publicSignals) :
      StepsSucceed store (proof, publicSignals)

end Outcomes

section Attempts

variable
    {files : TempFiles}
    {prover : ZkProver}
    {external : External}
    {store after : Store Path ByteArray}

/-- A script that is known to succeed has that outcome only. -/
theorem attempt_eq_ok_iff
    {Result : Type}
    {script : Attempt Result}
    {value result : Result}
    {final : Store Path ByteArray}
    (runs : attempt script store = (.ok value, final)) :
    attempt script store = (.ok result, after) ↔
      value = result ∧ after = final := by
  rw [runs]
  constructor
  · intro succeeded
    cases succeeded
    exact ⟨rfl, rfl⟩
  · rintro ⟨rfl, rfl⟩
    rfl

/-- An outcome is passed on, or its error behind the label. -/
theorem attempt_orReturn
    {Result : Type}
    (label : String)
    (outcome : Except String Result)
    (result : Result) :
    attempt (orReturn label outcome) store = (.ok result, after) ↔
      outcome = .ok result ∧ after = store := by
  cases outcome with
  | ok value =>
      rw [Except.ok.injEq]
      exact attempt_eq_ok_iff rfl
  | error error =>
      exact iff_of_false nofun nofun

/-- A missing option is an error. -/
theorem attempt_okOrElse
    {Result : Type}
    (option : Option Result)
    (message : String)
    (result : Result) :
    attempt (okOrElse option message) store = (.ok result, after) ↔
      option = some result ∧ after = store := by
  cases option with
  | some value =>
      rw [Option.some.injEq]
      exact attempt_eq_ok_iff rfl
  | none =>
      exact iff_of_false nofun nofun

/-- Without success there is an error. -/
theorem attempt_unless
    (success : Bool)
    (message : String)
    (answer : Unit) :
    attempt (if !success then throw message else pure () : Attempt Unit)
        store =
        (.ok answer, after) ↔
      success = true ∧ after = store := by
  cases success with
  | true =>
      exact (attempt_eq_ok_iff rfl).trans (and_congr_left' (by simp))
  | false =>
      exact iff_of_false nofun nofun

/-- Returning a result changes nothing. -/
theorem attempt_return
    {Result : Type}
    (returned result : Result) :
    attempt (pure returned : Attempt Result) store = (.ok result, after) ↔
      returned = result ∧ after = store :=
  attempt_eq_ok_iff rfl

/-- Reading a file finds what stands in it. -/
theorem attempt_readFile
    (path : Path)
    (found : Option ByteArray) :
    attempt (readFile path) store = (.ok found, after) ↔
      store path = found ∧ after = store :=
  attempt_eq_ok_iff (Prod.ext rfl (Function.update_eq_self path store))

/-- An output is left in its file. -/
theorem attempt_writeOutput
    (path : Path)
    (output : Option ByteArray)
    (answer : Unit) :
    attempt (writeOutput path output) store = (.ok answer, after) ↔
      after = leave store path output := by
  have runs :
      attempt (writeOutput path output) store =
        (.ok (), leave store path output) := by
    cases output with
    | none => rfl
    | some content => rfl
  exact (attempt_eq_ok_iff runs).trans (and_iff_right rfl)

/-- Generating the witness succeeds when node starts and succeeds. -/
theorem attempt_generateWitness
    (answer : Unit) :
    attempt (generateWitness files prover external) store =
        (.ok answer, after) ↔
      ∃ wasmDir,
        parent prover.wasmPath = some wasmDir ∧
          external.launchNode = .ok () ∧
          (witnessRun prover external wasmDir
            (store (files.path .input))).success = true ∧
          after = afterNode files prover external wasmDir store := by
  unfold generateWitness
  simp only [SharedStore.attempt_bind_eq_ok, attempt_okOrElse,
    attempt_orReturn, attempt_readFile, attempt_writeOutput,
    attempt_unless]
  constructor
  · rintro ⟨wasmDir, _, ⟨hasParent, rfl⟩, _, _, ⟨launched, rfl⟩, _, _,
      ⟨rfl, rfl⟩, _, _, rfl, success, rfl⟩
    exact ⟨wasmDir, hasParent, launched, success, rfl⟩
  · rintro ⟨wasmDir, hasParent, launched, success, rfl⟩
    exact
      ⟨wasmDir, store, ⟨hasParent, rfl⟩, (), store, ⟨launched, rfl⟩, _, store,
        ⟨rfl, rfl⟩, (), _, rfl, success, rfl⟩

/-- Calling rapidsnark succeeds when it starts and succeeds. -/
theorem attempt_callRapidsnark
    (answer : Unit) :
    attempt (callRapidsnark files prover external) store =
        (.ok answer, after) ↔
      external.launchRapidsnark = .ok () ∧
        (rapidsnarkRun files prover external store).success = true ∧
        after = afterRapidsnark files prover external store := by
  unfold callRapidsnark
  simp only [SharedStore.attempt_bind_eq_ok, attempt_orReturn,
    attempt_readFile, attempt_writeOutput, attempt_unless]
  constructor
  · rintro ⟨_, _, ⟨launched, rfl⟩, _, _, ⟨rfl, rfl⟩, _, _, rfl, _, _, rfl,
      success, rfl⟩
    exact ⟨launched, success, rfl⟩
  · rintro ⟨launched, success, rfl⟩
    exact
      ⟨(), store, ⟨launched, rfl⟩, _, store, ⟨rfl, rfl⟩, (), _, rfl, (), _,
        rfl, success, rfl⟩

/-- A result is returned when its file is read and parsed. -/
theorem attempt_readParsed
    {Result : Type}
    (path : Path)
    (readLabel parseLabel : String)
    (read : Option ByteArray → Except String String)
    (parse : String → Except String Result)
    (result : Result) :
    attempt
        (do
          let found ← readFile path
          let text ← orReturn readLabel (read found)
          orReturn parseLabel (parse text) : Attempt Result)
        store =
        (.ok result, after) ↔
      ∃ text,
        read (store path) = .ok text ∧
          parse text = .ok result ∧
          after = store := by
  simp only [SharedStore.attempt_bind_eq_ok, attempt_orReturn,
    attempt_readFile]
  constructor
  · rintro ⟨_, _, ⟨rfl, rfl⟩, text, _, ⟨isRead, rfl⟩, parsed, rfl⟩
    exact ⟨text, isRead, parsed, rfl⟩
  · rintro ⟨text, isRead, parsed, rfl⟩
    exact ⟨_, _, ⟨rfl, rfl⟩, text, _, ⟨isRead, rfl⟩, parsed, rfl⟩

/-- So is the proof. -/
theorem attempt_readProof
    (proof : Proof) :
    attempt (readProof files external) store = (.ok proof, after) ↔
      ∃ proofJson,
        external.readProof (store (files.path .proof)) = .ok proofJson ∧
          external.parseProof proofJson = .ok proof ∧
          after = store :=
  attempt_readParsed ..

/-- And so are the public signals. -/
theorem attempt_readPublic
    (publicSignals : PublicSignals) :
    attempt (readPublic files external) store =
        (.ok publicSignals, after) ↔
      ∃ publicJson,
        external.readPublic (store (files.path .publicSignals)) =
            .ok publicJson ∧
          external.parsePublic publicJson = .ok publicSignals ∧
          after = store :=
  attempt_readParsed ..

/-- The steps up to the clean-up succeed when each of them does. -/
theorem exists_attempt_compute
    (output : Proof × PublicSignals) :
    (∃ after,
        attempt (compute files prover external) store =
          (.ok output, after)) ↔
      StepsSucceed files prover external store output := by
  unfold compute
  simp only [SharedStore.attempt_bind_eq_ok, attempt_generateWitness,
    attempt_callRapidsnark, attempt_readProof, attempt_readPublic,
    attempt_return]
  constructor
  · rintro ⟨_, _, _, ⟨wasmDir, hasParent, nodeLaunched, generated, rfl⟩, _, _,
      ⟨rapidsnarkLaunched, proved, rfl⟩, proof, _,
      ⟨proofJson, proofRead, proofParsed, rfl⟩, publicSignals, _,
      ⟨publicJson, publicRead, publicParsed, rfl⟩, rfl, rfl⟩
    exact
      .succeed hasParent nodeLaunched generated rapidsnarkLaunched proved
        proofRead proofParsed publicRead publicParsed
  · rintro ⟨hasParent, nodeLaunched, generated, rapidsnarkLaunched, proved,
      proofRead, proofParsed, publicRead, publicParsed⟩
    exact
      ⟨_, (), _, ⟨_, hasParent, nodeLaunched, generated, rfl⟩, (), _,
        ⟨rapidsnarkLaunched, proved, rfl⟩, _, _,
        ⟨_, proofRead, proofParsed, rfl⟩, _, _,
        ⟨_, publicRead, publicParsed, rfl⟩, rfl, rfl⟩

end Attempts

section Accesses

variable
    {files : TempFiles}
    {prover : ZkProver}
    {external : External}
    {allowed : Path → (Option ByteArray → Option ByteArray) → Prop}

/-- Passing an outcome on accesses nothing. -/
theorem orReturn_accesses
    {Result : Type}
    (label : String)
    (outcome : Except String Result) :
    Script.Accesses allowed (ExceptT.run (orReturn label outcome)) := by
  cases outcome with
  | ok result => trivial
  | error error => trivial

/-- Passing an option on accesses nothing. -/
theorem okOrElse_accesses
    {Result : Type}
    (option : Option Result)
    (message : String) :
    Script.Accesses allowed (ExceptT.run (okOrElse option message)) := by
  cases option with
  | some result => trivial
  | none => trivial

/-- Ending with an error or without accesses nothing. -/
theorem unless_accesses
    (success : Bool)
    (message : String) :
    Script.Accesses allowed
      (ExceptT.run
        (if !success then throw message else pure () : Attempt Unit)) := by
  cases success with
  | true => trivial
  | false => trivial

/-- Reading a file accesses it. -/
theorem readFile_accesses
    {path : Path}
    (reads : allowed path id) :
    Script.Accesses allowed (ExceptT.run (readFile path)) :=
  ⟨reads, fun _ => trivial⟩

/-- An output accesses its file. -/
theorem writeOutput_accesses
    {path : Path}
    (writes : ∀ content, allowed path fun _ => some content)
    (output : Option ByteArray) :
    Script.Accesses allowed (ExceptT.run (writeOutput path output)) := by
  cases output with
  | none => trivial
  | some content => exact ⟨writes content, fun _ => trivial⟩

/-- Reading and parsing a file accesses it. -/
theorem readParsed_accesses
    {Result : Type}
    {path : Path}
    (reads : allowed path id)
    (readLabel parseLabel : String)
    (read : Option ByteArray → Except String String)
    (parse : String → Except String Result) :
    Script.Accesses allowed
      (ExceptT.run
        (do
          let found ← readFile path
          let text ← orReturn readLabel (read found)
          orReturn parseLabel (parse text) : Attempt Result)) := by
  refine (readFile_accesses reads).attempt_bind fun _ => ?_
  refine (orReturn_accesses _ _).attempt_bind fun _ => ?_
  exact orReturn_accesses _ _

/-- Generating the witness reads the input and writes the witness. -/
theorem generateWitness_accesses
    (reads : allowed (files.path .input) id)
    (writes :
      ∀ content, allowed (files.path .witness) fun _ => some content) :
    Script.Accesses allowed
      (ExceptT.run (generateWitness files prover external)) := by
  refine (okOrElse_accesses _ _).attempt_bind fun _ => ?_
  refine (orReturn_accesses _ _).attempt_bind fun _ => ?_
  refine (readFile_accesses reads).attempt_bind fun _ => ?_
  refine (writeOutput_accesses writes _).attempt_bind fun _ => ?_
  exact unless_accesses _ _

/-- Calling rapidsnark reads the witness and writes the two outputs. -/
theorem callRapidsnark_accesses
    (reads : allowed (files.path .witness) id)
    (writesProof :
      ∀ content, allowed (files.path .proof) fun _ => some content)
    (writesPublic :
      ∀ content, allowed (files.path .publicSignals) fun _ => some content) :
    Script.Accesses allowed
      (ExceptT.run (callRapidsnark files prover external)) := by
  refine (orReturn_accesses _ _).attempt_bind fun _ => ?_
  refine (readFile_accesses reads).attempt_bind fun _ => ?_
  refine (writeOutput_accesses writesProof _).attempt_bind fun _ => ?_
  refine (writeOutput_accesses writesPublic _).attempt_bind fun _ => ?_
  exact unless_accesses _ _

/-- The steps up to the clean-up read the files and write the outputs. -/
theorem compute_accesses
    (reads : ∀ kind, allowed (files.path kind) id)
    (writes :
      ∀ kind content,
        kind ≠ .input →
        allowed (files.path kind) fun _ => some content) :
    Script.Accesses allowed
      (ExceptT.run (compute files prover external)) := by
  have generated :
      Script.Accesses allowed
        (ExceptT.run (generateWitness files prover external)) :=
    generateWitness_accesses (reads _) fun content =>
      writes .witness content (by decide)
  have called :
      Script.Accesses allowed
        (ExceptT.run (callRapidsnark files prover external)) :=
    callRapidsnark_accesses (reads _)
      (fun content => writes .proof content (by decide))
      fun content => writes .publicSignals content (by decide)
  have proofRead :
      Script.Accesses allowed (ExceptT.run (readProof files external)) :=
    readParsed_accesses (reads _) ..
  have publicRead :
      Script.Accesses allowed (ExceptT.run (readPublic files external)) :=
    readParsed_accesses (reads _) ..
  refine generated.attempt_bind fun _ => ?_
  refine called.attempt_bind fun _ => ?_
  refine proofRead.attempt_bind fun _ => ?_
  exact publicRead.attempt_bind fun _ => trivial

end Accesses

section CleanUp

variable
    {files : TempFiles}
    {prover : ZkProver}
    {external : External}

/-- None of the temporary files exists. -/
def NoneExist
    (files : TempFiles)
    (store : Store Path ByteArray) : Prop :=
  ∀ kind, store (files.path kind) = none

/-- Where removal succeeds a removed file is gone. -/
theorem attempt_removeFile
    (removes : ∀ path, external.removes path = true)
    (path : Path)
    (store : Store Path ByteArray) :
    attempt (removeFile external path) store =
      (.ok (), Function.update store path none) := by
  unfold removeFile
  rw [if_pos (removes path)]
  rfl

/-- The store without the temporary files. -/
def cleaned
    (files : TempFiles)
    (store : Store Path ByteArray) : Store Path ByteArray :=
  Function.update
    (Function.update
      (Function.update
        (Function.update store (files.path .input) none)
        (files.path .witness) none)
      (files.path .proof) none)
    (files.path .publicSignals) none

/-- There none of them exists. -/
theorem cleaned_noneExist
    (store : Store Path ByteArray) :
    NoneExist files (cleaned files store) := by
  intro kind
  cases kind <;>
    simp [cleaned, files.distinct.eq_iff]

/-- The clean-up succeeds and leaves that store. -/
theorem attempt_cleanUp
    (removes : ∀ path, external.removes path = true)
    (store : Store Path ByteArray) :
    attempt (cleanUp files external) store =
      (.ok (), cleaned files store) := by
  have removed := attempt_removeFile removes
  unfold cleanUp
  rw [SharedStore.attempt_bind_of_ok (removed _ _),
    SharedStore.attempt_bind_of_ok (removed _ _),
    SharedStore.attempt_bind_of_ok (removed _ _), removed]
  rfl

/-- The steps up to the clean-up keep the input. -/
theorem compute_keeps_input
    (files : TempFiles)
    (prover : ZkProver)
    (external : External) :
    Script.Keeps (files.path .input)
      (ExceptT.run (compute files prover external)) := by
  refine compute_accesses (fun _ _ _ => rfl) ?_
  intro kind content differs same
  exact absurd (files.distinct same) differs

/-- What was computed is returned behind the clean-up. -/
theorem attempt_prove_of_ok
    {store middle after : Store Path ByteArray}
    {output : Proof × PublicSignals}
    (computed :
      attempt (compute files prover external) store = (.ok output, middle))
    (cleanedUp :
      attempt (cleanUp files external) middle = (.ok (), after)) :
    attempt (prove files prover external) store = (.ok output, after) := by
  unfold prove
  rw [SharedStore.attempt_bind_of_ok computed,
    SharedStore.attempt_bind_of_ok cleanedUp]
  rfl

/-- An error before the clean-up is returned without it. -/
theorem attempt_prove_of_error
    {store middle : Store Path ByteArray}
    {error : String}
    (failed :
      attempt (compute files prover external) store =
        (.error error, middle)) :
    attempt (prove files prover external) store = (.error error, middle) := by
  unfold prove
  rw [SharedStore.attempt_bind_of_error failed]

/-- Behind a written input the files are gone exactly if no step fails. -/
theorem prove_noneExist_iff
    {store : Store Path ByteArray}
    {content : ByteArray}
    (removes : ∀ path, external.removes path = true)
    (written : store (files.path .input) = some content) :
    NoneExist files (attempt (prove files prover external) store).2 ↔
      ∃ output, StepsSucceed files prover external store output := by
  have kept := (compute_keeps_input files prover external).run_eq store
  cases computed : attempt (compute files prover external) store with
  | mk result middle =>
      cases result with
      | ok output =>
          rw [attempt_prove_of_ok computed (attempt_cleanUp removes _)]
          refine iff_of_true (cleaned_noneExist middle) ⟨output, ?_⟩
          exact (exists_attempt_compute output).mp ⟨middle, computed⟩
      | error error =>
          have remains : middle (files.path .input) = some content := by
            change (attempt (compute files prover external) store).2
              (files.path .input) = _ at kept
            rw [computed, written] at kept
            exact kept
          rw [attempt_prove_of_error computed]
          refine iff_of_false ?_ ?_
          · intro noneExist
            have gone : middle (files.path .input) = none :=
              noneExist .input
            rw [remains] at gone
            cases gone
          · rintro ⟨output, succeed⟩
            obtain ⟨after, other⟩ :=
              (exists_attempt_compute output).mpr succeed
            rw [computed] at other
            cases other

end CleanUp

section Calls

variable
    (tempDir : Path)
    (prover : ZkProver)
    (external : External)
    (input : ProofInput)
    (store : Store Path ByteArray)

/-- The temporary files that the call names. -/
def callFiles : TempFiles :=
  tempFiles tempDir external.clock.toNat

/-- When the call returns, none of its temporary files exists. -/
def CleansUp : Prop :=
  ∀ result,
    ((generateProof prover external tempDir input).run store).1 =
      .ok result →
    NoneExist (callFiles tempDir external)
      ((generateProof prover external tempDir input).run store).2

/-- The calls of which no temporary file is left, by what happens outside. -/
inductive LeavesNothing : Prop where
  | beforeEpoch
      (before : external.clock < 0)
  | notSerialised
      {error : String}
      (failed : external.serialize input = .error error)
      (noneBefore : NoneExist (callFiles tempDir external) store)
  | notWritten
      {inputJson error : String}
      {leaves : Option ByteArray → Option ByteArray}
      (serialised : external.serialize input = .ok inputJson)
      (failed : external.write = .failed error leaves)
      (noneLeft :
        NoneExist (callFiles tempDir external)
          (Function.update store ((callFiles tempDir external).path .input)
            (leaves (store ((callFiles tempDir external).path .input)))))
  | allSucceed
      {inputJson : String}
      {output : Proof × PublicSignals}
      (serialised : external.serialize input = .ok inputJson)
      (written : external.write = .written)
      (succeed :
        StepsSucceed (callFiles tempDir external) prover external
          (Function.update store ((callFiles tempDir external).path .input)
            (some inputJson.toUTF8))
          output)

variable
    {tempDir prover external input store}

/-- From the epoch on a call runs its steps. -/
theorem run_generateProof
    (since : ¬ external.clock < 0) :
    (generateProof prover external tempDir input).run store =
      (.ok
          (attempt
            (generateProofIn (callFiles tempDir external) prover external
              input) store).1,
        (attempt
          (generateProofIn (callFiles tempDir external) prover external
            input) store).2) := by
  unfold generateProof
  rw [if_neg since]
  exact Script.run_bind _ _ _

/-- So a call cleans up when its steps leave no temporary file. -/
theorem cleansUp_iff
    (since : ¬ external.clock < 0) :
    CleansUp tempDir prover external input store ↔
      NoneExist (callFiles tempDir external)
        (attempt
          (generateProofIn (callFiles tempDir external) prover external
            input) store).2 := by
  unfold CleansUp
  rw [run_generateProof since]
  constructor
  · intro cleans
    exact cleans _ rfl
  · intro noneExist _ _
    exact noneExist

/-- With a serialised input that is written, the call goes on to prove. -/
theorem attempt_generateProofIn_written
    {files : TempFiles}
    {inputJson : String}
    (serialised : external.serialize input = .ok inputJson)
    (written : external.write = .written) :
    attempt (generateProofIn files prover external input) store =
      attempt (prove files prover external)
        (Function.update store (files.path .input)
          (some inputJson.toUTF8)) := by
  unfold generateProofIn writeInput
  rw [serialised, written]
  rfl

/-- When writing fails the call returns with what that left of the file. -/
theorem attempt_generateProofIn_failed
    {files : TempFiles}
    {inputJson error : String}
    {leaves : Option ByteArray → Option ByteArray}
    (serialised : external.serialize input = .ok inputJson)
    (failed : external.write = .failed error leaves) :
    attempt (generateProofIn files prover external input) store =
      (.error s!"Write error: {error}",
        Function.update store (files.path .input)
          (leaves (store (files.path .input)))) := by
  unfold generateProofIn writeInput
  rw [serialised, failed]
  rfl

/-- When serialising fails the call returns before it changes anything. -/
theorem attempt_generateProofIn_notSerialised
    {files : TempFiles}
    {error : String}
    (failed : external.serialize input = .error error) :
    attempt (generateProofIn files prover external input) store =
      (.error ("Serialize error: " ++ error), store) := by
  unfold generateProofIn
  rw [failed]
  rfl

/-- An input that is not serialised leaves what stood there before. -/
theorem leavesNothing_iff_of_notSerialised
    {error : String}
    (since : ¬ external.clock < 0)
    (failed : external.serialize input = .error error) :
    LeavesNothing tempDir prover external input store ↔
      NoneExist (callFiles tempDir external) store := by
  constructor
  · intro leaves
    cases leaves with
    | beforeEpoch before =>
        exact absurd before since
    | notSerialised _ noneBefore =>
        exact noneBefore
    | notWritten serialised _ _ =>
        rw [failed] at serialised
        cases serialised
    | allSucceed serialised _ _ =>
        rw [failed] at serialised
        cases serialised
  · intro noneBefore
    exact .notSerialised failed noneBefore

/-- An input that is not written leaves what the failed write leaves. -/
theorem leavesNothing_iff_of_notWritten
    {inputJson error : String}
    {leavesOf : Option ByteArray → Option ByteArray}
    (since : ¬ external.clock < 0)
    (serialised : external.serialize input = .ok inputJson)
    (failed : external.write = .failed error leavesOf) :
    LeavesNothing tempDir prover external input store ↔
      NoneExist (callFiles tempDir external)
        (Function.update store ((callFiles tempDir external).path .input)
          (leavesOf
            (store ((callFiles tempDir external).path .input)))) := by
  constructor
  · intro leaves
    cases leaves with
    | beforeEpoch before =>
        exact absurd before since
    | notSerialised notSerialised _ =>
        rw [serialised] at notSerialised
        cases notSerialised
    | notWritten _ failedSo noneLeft =>
        rw [failed] at failedSo
        cases failedSo
        exact noneLeft
    | allSucceed _ written _ =>
        rw [failed] at written
        cases written
  · intro noneLeft
    exact .notWritten serialised failed noneLeft

/-- Behind a written input nothing is left exactly if every step succeeds. -/
theorem leavesNothing_iff_of_written
    {inputJson : String}
    (since : ¬ external.clock < 0)
    (serialised : external.serialize input = .ok inputJson)
    (written : external.write = .written) :
    LeavesNothing tempDir prover external input store ↔
      ∃ output,
        StepsSucceed (callFiles tempDir external) prover external
          (Function.update store ((callFiles tempDir external).path .input)
            (some inputJson.toUTF8))
          output := by
  constructor
  · intro leaves
    cases leaves with
    | beforeEpoch before =>
        exact absurd before since
    | notSerialised notSerialised _ =>
        rw [serialised] at notSerialised
        cases notSerialised
    | notWritten _ failed _ =>
        rw [written] at failed
        cases failed
    | allSucceed serialisedSo _ succeed =>
        rw [serialised] at serialisedSo
        cases serialisedSo
        exact ⟨_, succeed⟩
  · rintro ⟨output, succeed⟩
    exact .allSucceed serialised written succeed

/--
When `generate_proof` returns, none of its temporary files exists exactly in
these cases: every step succeeds; or serialising or writing the input fails
and none of the files exists then.  A clock before the epoch makes the call
panic before it names them.
-/
theorem generateProof_cleansUp_iff
    (tempDir : Path)
    (prover : ZkProver)
    (external : External)
    (input : ProofInput)
    (store : Store Path ByteArray)
    (removes : ∀ path, external.removes path = true) :
    CleansUp tempDir prover external input store ↔
      LeavesNothing tempDir prover external input store := by
  by_cases before : external.clock < 0
  · refine iff_of_true ?_ (.beforeEpoch before)
    intro result returned
    unfold generateProof at returned
    rw [if_pos before] at returned
    cases returned
  · have since : ¬ external.clock < 0 := before
    rw [cleansUp_iff since]
    cases serialised : external.serialize input with
    | error error =>
        rw [attempt_generateProofIn_notSerialised serialised,
          leavesNothing_iff_of_notSerialised since serialised]
    | ok inputJson =>
        cases outcome : external.write with
        | failed error leavesOf =>
            rw [attempt_generateProofIn_failed serialised outcome,
              leavesNothing_iff_of_notWritten since serialised outcome]
        | written =>
            rw [attempt_generateProofIn_written serialised outcome,
              prove_noneExist_iff removes (Function.update_self ..),
              leavesNothing_iff_of_written since serialised outcome]

end Calls

section Copying

/-- A file read as a text (`std::fs::read_to_string`). -/
def readToString (found : Option ByteArray) : Except String String :=
  match found with
  | none => .error "No such file or directory (os error 2)"
  | some content =>
      match String.fromUTF8? content with
      | none => .error "stream did not contain valid UTF-8"
      | some text => .ok text

/-- Every step succeeds, and the programs copy the secret of the input. -/
def copying : External where
  clock := 0
  serialize := fun input => .ok input.secret
  write := .written
  launchNode := .ok ()
  node := fun _ _ found => ⟨found.isSome, "", found⟩
  launchRapidsnark := .ok ()
  rapidsnark := fun _ found => ⟨found.isSome, "", found, found⟩
  readProof := readToString
  parseProof := fun proofJson => .ok ⟨[proofJson], [], []⟩
  readPublic := readToString
  parsePublic := fun publicJson =>
    .ok ⟨publicJson, publicJson, publicJson, publicJson, publicJson,
      publicJson⟩
  removes := fun _ => true

/-- The paths of a key and of a circuit. -/
def sampleProver : ZkProver where
  zkeyPath := "build/withdraw.zkey"
  wasmPath := "build/withdraw.wasm"

/-- An input with a given secret. -/
def sampleInput (secret : String) : ProofInput where
  root := ""
  nullifierHash := ""
  recipient := ""
  relayer := ""
  fee := "0"
  refund := "0"
  secret := secret
  nullifier := ""
  pathElements := []
  pathIndices := []

/-- The condition at a call with every step succeeding. -/
theorem generateProof_cleansUp_iff_copying :
    CleansUp "/tmp" sampleProver copying (sampleInput "1") (fun _ => none) ↔
      LeavesNothing "/tmp" sampleProver copying (sampleInput "1")
        (fun _ => none) :=
  generateProof_cleansUp_iff "/tmp" sampleProver copying (sampleInput "1")
    (fun _ => none) fun _ => rfl

/-- Without node on the machine. -/
def withoutNode : External :=
  { copying with
    launchNode := .error "No such file or directory (os error 2)" }

/-- Without node a call returns an error and leaves the secret behind. -/
theorem generateProof_leaves_secret :
    (generateProof sampleProver withoutNode "/tmp" (sampleInput "1")).run
          (fun _ => none) =
        (.ok
            (.error
              ("Failed to execute node for witness generation: " ++
                "No such file or directory (os error 2)")),
          Function.update (fun _ => none)
            ((tempFiles "/tmp" 0).path .input)
            (some "1".toUTF8)) ∧
      ¬ CleansUp "/tmp" sampleProver withoutNode (sampleInput "1")
          fun _ => none := by
  have ends :
      (generateProof sampleProver withoutNode "/tmp" (sampleInput "1")).run
          (fun _ => none) =
        (.ok
            (.error
              ("Failed to execute node for witness generation: " ++
                "No such file or directory (os error 2)")),
          Function.update (fun _ => none)
            ((tempFiles "/tmp" 0).path .input)
            (some "1".toUTF8)) := by
    have hasParent : parent sampleProver.wasmPath = some "build" := by
      decide
    have serialised :
        withoutNode.serialize (sampleInput "1") = .ok "1" := rfl
    rw [run_generateProof (by decide),
      attempt_generateProofIn_written serialised rfl]
    unfold prove compute generateWitness
    rw [hasParent]
    rfl
  refine ⟨ends, ?_⟩
  intro cleans
  have gone := cleans _ (congrArg Prod.fst ends) .input
  rw [ends] at gone
  have remains :
      Function.update (fun _ => none) ((tempFiles "/tmp" 0).path .input)
          (some "1".toUTF8) ((tempFiles "/tmp" 0).path .input) =
        some "1".toUTF8 :=
    Function.update_self ..
  exact Option.some_ne_none _ (remains.symm.trans gone)

end Copying

end StarkCash.Zkp
