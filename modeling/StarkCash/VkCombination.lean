import Mathlib.Algebra.BigOperators.Fin
import StarkCash.BaseField

namespace StarkCash.Cairo

/-!
# The combination of the public inputs

`compute_vk_x` adds and multiplies by placeholders that return their first
argument.  Whatever the public inputs are, its result is the first point of
the key, which is the combination of the inputs exactly where their part of it
is the identity.
-/

/-- A key's points for the combination of six inputs. -/
abbrev IcPoints : Type :=
  Fin (LibraryVerifier.nPublicInputs + 1) → G1Point

/-- Six public inputs. -/
abbrev SixInputs : Type :=
  Fin LibraryVerifier.nPublicInputs → U256

/-- The position of the root among the public inputs. -/
def rootIndex : Fin LibraryVerifier.nPublicInputs :=
  ⟨0, by decide⟩

namespace LibraryVerifier

section Keys

/-- The points of the contract (`get_ic_points`), by their index. -/
def icPoints : IcPoints := fun i =>
  getIcPoints.get (i.cast rfl)

/-- They are all the points of the contract. -/
theorem getIcPoints_eq :
    getIcPoints = List.ofFn icPoints :=
  rfl

/-- The points of `circuits/build/verification_key.json` (`IC`). -/
def verificationKeyIc : IcPoints :=
  ![{ x := 13284525832213877751491406668379007139808132230013880313881986692744320106035#256
      y := 20563284390450440176680236796494156438501687278690353082541852788438248939322#256 },
    { x := 20709398416616492151168123005201743056841638269877336563391879998934580453706#256
      y := 12634371347236539772009942865418610081394931193591456038077049795412580613509#256 },
    { x := 3852130736395555412339775794273089052127051233371968921920017499158258031099#256
      y := 6446480123939708581092188805901915083509511309802823215866005129669372381456#256 },
    { x := 6747210200417956936787604363313569324079868043372245097671610713613186205904#256
      y := 3309551145391580139010353107555331048763380668851216956044333739898200607977#256 },
    { x := 5791639496854621132106261759059253507354040173201624979941945093919266818661#256
      y := 13663010644882973844363062122849501902659343386138814577584103007149905564217#256 },
    { x := 4040598410786004102454427481005020070644588985442469647526126538201224333819#256
      y := 17226060631338796877224103553857939852514810524677633802942434355546889200067#256 },
    { x := 11917524237533886749457651722405534314065205079380304502321060398046494088040#256
      y := 9195194379683815571101315224110514979163398496279308270850034508884819481806#256 }]

/-- The points of both keys are points of the curve. -/
theorem keys_onCurve
    (i : Fin (nPublicInputs + 1)) :
    (icPoints i).OnCurve ∧ (verificationKeyIc i).OnCurve := by
  revert i
  decide +kernel

end Keys

section Combination

/-- What the inputs contribute to the combination: `Σ inputs[i] * IC[i + 1]`. -/
def inputsPart
    (ic : IcPoints)
    (publicInputs : SixInputs) : Bn254G1 :=
  ∑ i, (publicInputs i).toNat • (ic i.succ).toGroup

/-- The combination of the inputs: `IC[0] + Σ inputs[i] * IC[i + 1]`. -/
def combination
    (ic : IcPoints)
    (publicInputs : SixInputs) : Bn254G1 :=
  (ic 0).toGroup + inputsPart ic publicInputs

/-- A computation ends with a point that denotes a group element. -/
def Denotes
    (computed : Except Panic G1Point)
    (element : Bn254G1) : Prop :=
  ∃ point,
    computed = .ok point ∧
      point.toGroup = element

/-- Without inputs nothing is added to the first point. -/
theorem combination_zero
    (ic : IcPoints) :
    combination ic (fun _ => 0) = (ic 0).toGroup := by
  unfold combination inputsPart
  simp

/-- One as a single input, and zeros else. -/
def singleInput (index : Fin nPublicInputs) : SixInputs :=
  Function.update (fun _ => 0) index 1

/-- A single input of one contributes its point. -/
theorem inputsPart_single
    (ic : IcPoints)
    (index : Fin nPublicInputs) :
    inputsPart ic (singleInput index) = (ic index.succ).toGroup := by
  unfold inputsPart singleInput
  rw [Finset.sum_eq_single index]
  · rw [Function.update_self]
    exact one_nsmul _
  · intro other _ differs
    rw [Function.update_of_ne differs]
    exact zero_nsmul _
  · intro absent
    exact absurd (Finset.mem_univ index) absent

end Combination

section Placeholders

variable {p1 p2 : G1Point}

/-- Adding to a point of the curve gives that point. -/
theorem ecAddSimple_of_onCurve
    (onCurve : p1.OnCurve)
    (p2 : G1Point) :
    ecAddSimple p1 p2 = p1 := by
  unfold ecAddSimple
  rw [if_neg onCurve.not_zero, ite_self]

end Placeholders

section Loop

variable (publicInputs : SixInputs)

/-- The loop never leaves the first point of a key. -/
theorem computeVkX_eq
    {ic : IcPoints}
    (onCurve : (ic 0).OnCurve) :
    computeVkX (List.ofFn ic) (List.ofFn publicInputs) = .ok (ic 0) := by
  have first : arrayAt (List.ofFn ic) 0 = .ok (ic 0) := rfl
  unfold computeVkX
  rw [first, Imperative.ok_bind]
  refine Imperative.foldlM_fixed _ ?_
  intro i member
  have bound : i < nPublicInputs := List.mem_range.mp member
  have input :
      arrayAt (List.ofFn publicInputs) i = .ok (publicInputs ⟨i, bound⟩) := by
    unfold arrayAt
    rw [List.getElem?_ofFn, dif_pos bound]
  have point :
      arrayAt (List.ofFn ic) (i + 1) =
        .ok (ic ⟨i + 1, Nat.succ_lt_succ bound⟩) := by
    unfold arrayAt
    rw [List.getElem?_ofFn, dif_pos (Nat.succ_lt_succ bound)]
  rw [input, Imperative.ok_bind, point, Imperative.ok_bind]
  exact congrArg Except.ok (ecAddSimple_of_onCurve onCurve _)

/-- So the result is the combination where the inputs contribute nothing. -/
theorem denotes_combination_iff
    {ic : IcPoints}
    (onCurve : (ic 0).OnCurve) :
    Denotes (computeVkX (List.ofFn ic) (List.ofFn publicInputs))
        (combination ic publicInputs) ↔
      inputsPart ic publicInputs = 0 := by
  unfold Denotes combination
  rw [computeVkX_eq publicInputs onCurve]
  constructor
  · rintro ⟨point, computed, same⟩
    cases computed
    exact left_eq_add.mp same
  · intro nothing
    refine ⟨ic 0, rfl, ?_⟩
    rw [nothing, add_zero]

end Loop

section ContractKey

/--
For every six public inputs the result is the first point of the contract, and
it is their combination over the points of the contract exactly where their
part of it is the identity.
-/
theorem computeVkX_getIcPoints
    (publicInputs : SixInputs) :
    computeVkX getIcPoints (List.ofFn publicInputs) = .ok (icPoints 0) ∧
      (Denotes (computeVkX getIcPoints (List.ofFn publicInputs))
          (combination icPoints publicInputs) ↔
        inputsPart icPoints publicInputs = 0) := by
  have onCurve := (keys_onCurve 0).1
  rw [getIcPoints_eq]
  exact
    ⟨computeVkX_eq publicInputs onCurve,
      denotes_combination_iff publicInputs onCurve⟩

/--
With all inputs zero the result is not the combination over the key of the
circuit, and with a root of one and zeros else it is not the combination over
the points of the contract either.
-/
theorem computeVkX_not_combination :
    ¬ Denotes
          (computeVkX getIcPoints (List.ofFn (fun _ => 0 : SixInputs)))
          (combination verificationKeyIc fun _ => 0) ∧
      ¬ Denotes
          (computeVkX getIcPoints (List.ofFn (singleInput rootIndex)))
          (combination icPoints (singleInput rootIndex)) := by
  rw [getIcPoints_eq]
  constructor
  · rintro ⟨point, computed, same⟩
    rw [computeVkX_eq _ (keys_onCurve 0).1] at computed
    cases computed
    rw [combination_zero] at same
    have samePoint :=
      (keys_onCurve 0).1.eq_of_toGroup_eq (keys_onCurve 0).2 same
    exact absurd (congrArg G1Point.x samePoint) (by decide)
  · rw [denotes_combination_iff _ (keys_onCurve 0).1, inputsPart_single]
    exact (keys_onCurve _).1.toGroup_ne_zero

end ContractKey

end LibraryVerifier

end StarkCash.Cairo
