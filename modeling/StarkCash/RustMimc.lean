import Mathlib.Data.List.GetD
import Mathlib.Data.Nat.Digits.Lemmas
import StarkCash.CircomMimc
import StarkCash.Imperative
import StarkCash.Words

namespace StarkCash.Rust

/-!
# MiMC7 in Rust

Embedding of `src/module/cryptography/mimc.rs`.  A `BigUint` is a natural
number.  Modulo the prime the hash is the key-alternating cipher that the
circuits constrain, with the reductions at other places; over 32-byte arrays
it is exactly the circuits' output.
-/

section Definitions

/-- The BN254 scalar prime (`field_prime`). -/
def fieldPrime : ℕ :=
  21888242871839275222246405745257275088548364400416034343698204186575808495617

/-- The power of a round (`exponent`). -/
def exponent : ℕ :=
  7

/-- The number of rounds (`nrounds`). -/
abbrev nrounds : ℕ :=
  91

/-- All round constants (`round_constants`). -/
def roundConstants : Vector ℕ nrounds :=
  #v[
    0,
    20888961410941983456478427210666206549300505294776164667214940546594746570981,
    15265126113435022738560151911929040668591755459209400716467504685752745317193,
    8334177627492981984476504167502758309043212251641796197711684499645635709656,
    1374324219480165500871639364801692115397519265181803854177629327624133579404,
    11442588683664344394633565859260176446561886575962616332903193988751292992472,
    2558901189096558760448896669327086721003508630712968559048179091037845349145,
    11189978595292752354820141775598510151189959177917284797737745690127318076389,
    3262966573163560839685415914157855077211340576201936620532175028036746741754,
    17029914891543225301403832095880481731551830725367286980611178737703889171730,
    4614037031668406927330683909387957156531244689520944789503628527855167665518,
    19647356996769918391113967168615123299113119185942498194367262335168397100658,
    5040699236106090655289931820723926657076483236860546282406111821875672148900,
    2632385916954580941368956176626336146806721642583847728103570779270161510514,
    17691411851977575435597871505860208507285462834710151833948561098560743654671,
    11482807709115676646560379017491661435505951727793345550942389701970904563183,
    8360838254132998143349158726141014535383109403565779450210746881879715734773,
    12663821244032248511491386323242575231591777785787269938928497649288048289525,
    3067001377342968891237590775929219083706800062321980129409398033259904188058,
    8536471869378957766675292398190944925664113548202769136103887479787957959589,
    19825444354178182240559170937204690272111734703605805530888940813160705385792,
    16703465144013840124940690347975638755097486902749048533167980887413919317592,
    13061236261277650370863439564453267964462486225679643020432589226741411380501,
    10864774797625152707517901967943775867717907803542223029967000416969007792571,
    10035653564014594269791753415727486340557376923045841607746250017541686319774,
    3446968588058668564420958894889124905706353937375068998436129414772610003289,
    4653317306466493184743870159523234588955994456998076243468148492375236846006,
    8486711143589723036499933521576871883500223198263343024003617825616410932026,
    250710584458582618659378487568129931785810765264752039738223488321597070280,
    2104159799604932521291371026105311735948154964200596636974609406977292675173,
    16313562605837709339799839901240652934758303521543693857533755376563489378839,
    6032365105133504724925793806318578936233045029919447519826248813478479197288,
    14025118133847866722315446277964222215118620050302054655768867040006542798474,
    7400123822125662712777833064081316757896757785777291653271747396958201309118,
    1744432620323851751204287974553233986555641872755053103823939564833813704825,
    8316378125659383262515151597439205374263247719876250938893842106722210729522,
    6739722627047123650704294650168547689199576889424317598327664349670094847386,
    21211457866117465531949733809706514799713333930924902519246949506964470524162,
    13718112532745211817410303291774369209520657938741992779396229864894885156527,
    5264534817993325015357427094323255342713527811596856940387954546330728068658,
    18884137497114307927425084003812022333609937761793387700010402412840002189451,
    5148596049900083984813839872929010525572543381981952060869301611018636120248,
    19799686398774806587970184652860783461860993790013219899147141137827718662674,
    19240878651604412704364448729659032944342952609050243268894572835672205984837,
    10546185249390392695582524554167530669949955276893453512788278945742408153192,
    5507959600969845538113649209272736011390582494851145043668969080335346810411,
    18177751737739153338153217698774510185696788019377850245260475034576050820091,
    19603444733183990109492724100282114612026332366576932662794133334264283907557,
    10548274686824425401349248282213580046351514091431715597441736281987273193140,
    1823201861560942974198127384034483127920205835821334101215923769688644479957,
    11867589662193422187545516240823411225342068709600734253659804646934346124945,
    18718569356736340558616379408444812528964066420519677106145092918482774343613,
    10530777752259630125564678480897857853807637120039176813174150229243735996839,
    20486583726592018813337145844457018474256372770211860618687961310422228379031,
    12690713110714036569415168795200156516217175005650145422920562694422306200486,
    17386427286863519095301372413760745749282643730629659997153085139065756667205,
    2216432659854733047132347621569505613620980842043977268828076165669557467682,
    6309765381643925252238633914530877025934201680691496500372265330505506717193,
    20806323192073945401862788605803131761175139076694468214027227878952047793390,
    4037040458505567977365391535756875199663510397600316887746139396052445718861,
    19948974083684238245321361840704327952464170097132407924861169241740046562673,
    845322671528508199439318170916419179535949348988022948153107378280175750024,
    16222384601744433420585982239113457177459602187868460608565289920306145389382,
    10232118865851112229330353999139005145127746617219324244541194256766741433339,
    6699067738555349409504843460654299019000594109597429103342076743347235369120,
    6220784880752427143725783746407285094967584864656399181815603544365010379208,
    6129250029437675212264306655559561251995722990149771051304736001195288083309,
    10773245783118750721454994239248013870822765715268323522295722350908043393604,
    4490242021765793917495398271905043433053432245571325177153467194570741607167,
    19596995117319480189066041930051006586888908165330319666010398892494684778526,
    837850695495734270707668553360118467905109360511302468085569220634750561083,
    11803922811376367215191737026157445294481406304781326649717082177394185903907,
    10201298324909697255105265958780781450978049256931478989759448189112393506592,
    13564695482314888817576351063608519127702411536552857463682060761575100923924,
    9262808208636973454201420823766139682381973240743541030659775288508921362724,
    173271062536305557219323722062711383294158572562695717740068656098441040230,
    18120430890549410286417591505529104700901943324772175772035648111937818237369,
    20484495168135072493552514219686101965206843697794133766912991150184337935627,
    19155651295705203459475805213866664350848604323501251939850063308319753686505,
    11971299749478202793661982361798418342615500543489781306376058267926437157297,
    18285310723116790056148596536349375622245669010373674803854111592441823052978,
    7069216248902547653615508023941692395371990416048967468982099270925308100727,
    6465151453746412132599596984628739550147379072443683076388208843341824127379,
    16143532858389170960690347742477978826830511669766530042104134302796355145785,
    19362583304414853660976404410208489566967618125972377176980367224623492419647,
    1702213613534733786921602839210290505213503664731919006932367875629005980493,
    10781825404476535814285389902565833897646945212027592373510689209734812292327,
    4212716923652881254737947578600828255798948993302968210248673545442808456151,
    7594017890037021425366623750593200398174488805473151513558919864633711506220,
    18979889247746272055963929241596362599320706910852082477600815822482192194401,
    13602139229813231349386885113156901793661719180900395818909719758150455500533
  ]

/-- `BigUint::modpow`. -/
def modpow (base power modulus : ℕ) : ℕ :=
  base ^ power % modulus

/-- What an iteration of the loop of `mimc7_single` raises (`t`). -/
def roundT
    (k x : ℕ)
    (i : Fin nrounds) : ℕ :=
  if i.val = 0 then
    (k + x) % fieldPrime
  else
    ((x + k) % fieldPrime + roundConstants.get i) % fieldPrime

/-- One iteration of the loop of `mimc7_single`. -/
def mimc7Round
    (k x : ℕ)
    (i : Fin nrounds) : ℕ :=
  let t := roundT k x i
  if i.val < nrounds - 1 then
    modpow t exponent fieldPrime
  else
    (modpow t exponent fieldPrime + k) % fieldPrime

/-- Core MiMC7 function (`mimc7_single`). -/
def mimc7Single (xIn k : ℕ) : ℕ :=
  (List.finRange nrounds).foldl (mimc7Round k) xIn

/-- One iteration of the loop of `multi_mimc7`. -/
def multiMimc7Step (r inp : ℕ) : ℕ :=
  let h := mimc7Single inp r
  (r + inp + h) % fieldPrime

/-- MiMC7 calls chained by their keys (`multi_mimc7`). -/
def multiMimc7 (inputs : List ℕ) (k : ℕ) : ℕ :=
  inputs.foldl multiMimc7Step k

/-- A big-endian byte string, reduced (`bytes_to_field`). -/
def bytesToField (bytes : List UInt8) : ℕ :=
  BigEndian.value bytes % fieldPrime

/-- The shortest big-endian byte string, one byte for zero (`to_bytes_be`). -/
def toBytesBe (number : ℕ) : List UInt8 :=
  if number = 0 then
    [0]
  else
    ((Nat.digits 256 number).map UInt8.ofNat).reverse

/-- A number as a 32-byte array (`field_to_bytes`). -/
def fieldToBytes (val : ℕ) : Bytes32 :=
  let bytes := toBytesBe val
  if fits : bytes.length ≤ 32 then
    ⟨(List.replicate (32 - bytes.length) 0 ++ bytes).toArray, by
      simp only [List.size_toArray, List.length_append,
        List.length_replicate]
      omega⟩
  else
    ⟨(bytes.drop (bytes.length - 32)).toArray, by
      simp only [List.size_toArray, List.length_drop]
      omega⟩

/-- `assert_eq!(input.len(), 32, "Input must be 32 bytes")`. -/
def requireInput (input : List UInt8) : Except Panic Unit :=
  if input.length = 32 then
    .ok ()
  else
    .error ⟨"Input must be 32 bytes"⟩

/-- Two-input hash (`mimc7_hash`). -/
def mimc7Hash (left right : List UInt8) : Except Panic Bytes32 := do
  requireInput left
  requireInput right
  let l := bytesToField left
  let r := bytesToField right
  let k := 0
  let result := multiMimc7 [l, r] k
  return fieldToBytes result

/-- Single-input hash (`mimc7_hash_single`). -/
def mimc7HashSingle (input : List UInt8) : Except Panic Bytes32 := do
  requireInput input
  let x := bytesToField input
  let k := 0
  let result := mimc7Single x k
  return fieldToBytes result

end Definitions

section Bytes

/-- The decimal digits denote the prime of the contracts. -/
theorem fieldPrime_eq :
    fieldPrime = bn254Prime := by
  decide

/-- The prime is positive. -/
theorem fieldPrime_pos :
    0 < fieldPrime := by
  decide

/-- Base-256 digits, least significant first, denote the reversed bytes. -/
theorem value_reverse
    (bytes : List UInt8) :
    BigEndian.value bytes.reverse =
      Nat.ofDigits 256 (bytes.map UInt8.toNat) := by
  induction bytes with
  | nil =>
      rfl
  | cons byte bytes inductionHypothesis =>
      rw [List.reverse_cons, BigEndian.value_concat, inductionHypothesis,
        List.map_cons, Nat.ofDigits_cons]
      ring

/-- The shortest byte string of a number denotes it. -/
theorem value_toBytesBe
    (number : ℕ) :
    BigEndian.value (toBytesBe number) = number := by
  unfold toBytesBe
  split
  · next isZero =>
      rw [isZero]
      rfl
  · have digits :
        ((Nat.digits 256 number).map UInt8.ofNat).map UInt8.toNat =
          Nat.digits 256 number := by
      rw [List.map_map]
      refine List.map_congr_left (g := id) ?_ |>.trans (List.map_id _)
      intro digit member
      have small := Nat.digits_lt_base (by decide) member
      exact Nat.mod_eq_of_lt small
    rw [value_reverse, digits, Nat.ofDigits_digits]

/-- A number below the power has no more bytes. -/
theorem length_toBytesBe_le
    {number : ℕ}
    (fits : number < 2 ^ 256) :
    (toBytesBe number).length ≤ 32 := by
  unfold toBytesBe
  split
  · decide
  · rw [List.length_reverse, List.length_map,
      Nat.digits_length_le_iff (by decide)]
    exact fits

/-- Leading zeros do not change the number. -/
theorem value_replicate_append
    (count : ℕ)
    (bytes : List UInt8) :
    BigEndian.value (List.replicate count 0 ++ bytes) =
      BigEndian.value bytes := by
  induction count with
  | zero =>
      rfl
  | succ count inductionHypothesis =>
      rw [← inductionHypothesis]
      rfl

/-- Writing a number that fits and reading it back gives the number. -/
theorem toNat_fieldToBytes
    {val : ℕ}
    (fits : val < 2 ^ 256) :
    (fieldToBytes val).toNat = val := by
  rw [fieldToBytes, dif_pos (length_toBytesBe_le fits)]
  simp only [Bytes32.toNat, Vector.toList, value_replicate_append,
    value_toBytesBe]

end Bytes

section Refinement

/-- Both lists of constants are the same. -/
theorem roundConstants_toList :
    roundConstants.toList = Circuit.mimcC := by
  decide

/-- The constants denote those of the circuit. -/
theorem roundConstants_get
    (i : Fin nrounds) :
    ((roundConstants.get i : ℕ) : Fr) = Circuit.mimcConstant i := by
  have read : Circuit.mimcC.getD i 0 = roundConstants.get i := by
    rw [← roundConstants_toList, List.getD_eq_getElem _ _ (by simp)]
    rfl
  rw [Circuit.mimcConstant, read]

/-- Reducing does not change the field element. -/
theorem cast_mod_fieldPrime
    (number : ℕ) :
    ((number % fieldPrime : ℕ) : Fr) = (number : Fr) := by
  rw [fieldPrime_eq, ZMod.natCast_mod]

/-- What an iteration raises is the input of the cipher's round. -/
theorem cast_roundT
    (k x : ℕ)
    (i : Fin nrounds) :
    (roundT k x i : Fr) =
      KeyAlternating.roundInput Circuit.mimcConstant k i x := by
  unfold roundT KeyAlternating.roundInput
  split
  · next first =>
      rw [cast_mod_fieldPrime, first, Circuit.mimcConstant_zero]
      push_cast
      ring
  · rw [cast_mod_fieldPrime, Nat.cast_add, cast_mod_fieldPrime,
      roundConstants_get]
    push_cast
    rfl

/-- What the loop of `mimc7_single` has computed before an iteration. -/
def SingleLoop (xIn k level x : ℕ) : Prop :=
  (x : Fr) =
    KeyAlternating.rounds 7 Circuit.mimcConstant (k : Fr) level (xIn : Fr) +
      if level = nrounds then (k : Fr) else 0

/-- One iteration is one round of the cipher, and the last adds the key. -/
theorem SingleLoop.step
    {xIn k x : ℕ}
    (i : Fin nrounds)
    (before : SingleLoop xIn k i x) :
    SingleLoop xIn k (i + 1) (mimc7Round k x i) := by
  have inRange : i.val < 91 := i.isLt
  unfold SingleLoop at before ⊢
  rw [if_neg (Nat.ne_of_lt i.isLt), add_zero] at before
  have raised :
      (modpow (roundT k x i) exponent fieldPrime : Fr) =
        KeyAlternating.rounds 7 Circuit.mimcConstant (k : Fr) (i + 1)
          (xIn : Fr) := by
    rw [modpow, cast_mod_fieldPrime, Nat.cast_pow, cast_roundT, before]
    rfl
  unfold mimc7Round
  by_cases inner : i.val < nrounds - 1
  · have notLast : i.val + 1 ≠ nrounds := by
      omega
    rw [if_pos inner, if_neg notLast, raised, add_zero]
  · have last : i.val + 1 = nrounds := by
      omega
    rw [if_neg inner, if_pos last, cast_mod_fieldPrime, Nat.cast_add,
      raised]

/-- Modulo the prime `mimc7_single` is the cipher. -/
theorem cast_mimc7Single
    (xIn k : ℕ) :
    (mimc7Single xIn k : Fr) =
      KeyAlternating.encrypt 7 Circuit.mimcConstant nrounds (k : Fr)
        (xIn : Fr) := by
  have looped :
      SingleLoop xIn k nrounds (mimc7Single xIn k) := by
    refine Imperative.foldl_finRange_invariant (SingleLoop xIn k) ?_ ?_
    · rw [SingleLoop, if_neg (by decide), add_zero]
      rfl
    · intro x i before
      exact before.step i
  rw [SingleLoop, if_pos rfl] at looped
  exact looped

/-- The result of `mimc7_single` is reduced. -/
theorem mimc7Single_lt
    (xIn k : ℕ) :
    mimc7Single xIn k < bn254Prime := by
  have reduced :
      0 < nrounds → mimc7Single xIn k < fieldPrime := by
    refine
      Imperative.foldl_finRange_invariant
        (fun level x => 0 < level → x < fieldPrime) ?_ ?_
    · intro none
      exact absurd none (Nat.lt_irrefl 0)
    · intro x i _ _
      unfold mimc7Round
      split
      · exact Nat.mod_lt _ fieldPrime_pos
      · exact Nat.mod_lt _ fieldPrime_pos
  rw [← fieldPrime_eq]
  exact reduced (by decide)

/-- Modulo the prime `multi_mimc7` is the chained cipher. -/
theorem cast_multiMimc7
    (inputs : List ℕ)
    (k : ℕ) :
    (multiMimc7 inputs k : Fr) =
      KeyAlternating.compress 7 Circuit.mimcConstant nrounds (k : Fr)
        (inputs.map Nat.cast) := by
  induction inputs generalizing k with
  | nil =>
      rfl
  | cons inp inputs inductionHypothesis =>
      have step :
          (multiMimc7Step k inp : Fr) =
            KeyAlternating.absorb 7 Circuit.mimcConstant nrounds (k : Fr)
              (inp : Fr) := by
        rw [multiMimc7Step, cast_mod_fieldPrime, Nat.cast_add,
          Nat.cast_add, cast_mimc7Single]
        rfl
      rw [multiMimc7, List.foldl_cons, List.map_cons,
        KeyAlternating.compress, List.foldl_cons, ← step]
      exact inductionHypothesis _

/-- The result of `multi_mimc7` is reduced when there is an input. -/
theorem multiMimc7_lt
    {inputs : List ℕ}
    (nonempty : inputs ≠ [])
    (k : ℕ) :
    multiMimc7 inputs k < bn254Prime := by
  obtain ⟨earlier, last, rfl⟩ :=
    (List.eq_nil_or_concat inputs).resolve_left nonempty
  rw [multiMimc7, List.concat_eq_append, List.foldl_append,
    List.foldl_cons, List.foldl_nil, multiMimc7Step, ← fieldPrime_eq]
  exact Nat.mod_lt _ fieldPrime_pos

/-- A number below the prime fits the array. -/
theorem fits_of_lt_prime
    {number : ℕ}
    (below : number < bn254Prime) :
    number < 2 ^ 256 :=
  below.trans (by decide)

/-- An array as a field element, reduced. -/
theorem cast_bytesToField
    (bytes : Bytes32) :
    (bytesToField bytes.toList : Fr) = bytes.toFr :=
  cast_mod_fieldPrime _

/-- On two arrays `mimc7_hash` chains their field elements. -/
theorem mimc7Hash_toList
    (left right : Bytes32) :
    mimc7Hash left.toList right.toList =
      .ok
        (fieldToBytes
          (multiMimc7
            [bytesToField left.toList, bytesToField right.toList] 0)) := by
  have leftLength : requireInput left.toList = .ok () :=
    if_pos (Vector.length_toList ..)
  have rightLength : requireInput right.toList = .ok () :=
    if_pos (Vector.length_toList ..)
  simp only [mimc7Hash, leftLength, rightLength, Imperative.ok_bind]
  rfl

/-- On an array `mimc7_hash_single` runs the cipher on its field element. -/
theorem mimc7HashSingle_toList
    (input : Bytes32) :
    mimc7HashSingle input.toList =
      .ok (fieldToBytes (mimc7Single (bytesToField input.toList) 0)) := by
  have length : requireInput input.toList = .ok () :=
    if_pos (Vector.length_toList ..)
  simp only [mimc7HashSingle, length, Imperative.ok_bind]
  rfl

/--
The Rust code computes circomlib's hash.  For all inputs and every key the
constraints of `MultiMiMC7(nInputs, 91)` force the residue of `multi_mimc7`,
which is reduced when there is an input.  The array that `mimc7_hash` returns
for two arrays is the output of `MultiMiMC7(2, 91)` with key zero.
-/
theorem mimc_refines_circomlib
    (inputs : List ℕ)
    (k : ℕ)
    (left right : Bytes32) :
    Circuit.MultiMiMC7.Forces 91
        (fun i : Fin inputs.length => (inputs.get i : Fr)) (k : Fr)
        (multiMimc7 inputs k : Fr) ∧
      (inputs ≠ [] → multiMimc7 inputs k < bn254Prime) ∧
      ∃ (hash : Bytes32) (output : Fr),
        mimc7Hash left.toList right.toList = .ok hash ∧
          Circuit.MultiMiMC7.Forces 91 ![left.toFr, right.toFr] 0 output ∧
          hash.toNat = output.val := by
  refine ⟨?_, fun nonempty => multiMimc7_lt nonempty k, ?_⟩
  · have rounds : 0 < 91 := by
      decide
    have forces :=
      Circuit.MultiMiMC7.forces_compress rounds
        (fun i : Fin inputs.length => (inputs.get i : Fr)) (k : Fr)
    have same :
        List.ofFn (fun i : Fin inputs.length => (inputs.get i : Fr)) =
          inputs.map Nat.cast :=
      List.ofFn_getElem_eq_map inputs Nat.cast
    rw [same, ← cast_multiMimc7] at forces
    exact forces
  · refine ⟨_, _, mimc7Hash_toList left right,
      Circuit.MultiMiMC7.forces_compress (by decide) _ _, ?_⟩
    have below :=
      multiMimc7_lt
        (List.cons_ne_nil (bytesToField left.toList)
          [bytesToField right.toList])
        0
    have output :
        KeyAlternating.compress 7 Circuit.mimcConstant 91 0
            (List.ofFn ![left.toFr, right.toFr]) =
          (multiMimc7
            [bytesToField left.toList, bytesToField right.toList] 0 :
              Fr) := by
      rw [cast_multiMimc7, Nat.cast_zero, List.map_cons, List.map_cons,
        List.map_nil, cast_bytesToField, cast_bytesToField]
      rfl
    rw [toNat_fieldToBytes (fits_of_lt_prime below), output,
      ZMod.val_natCast, Nat.mod_eq_of_lt below]

end Refinement

section Permutation

/-- The seventh power is prime to the number of units. -/
theorem seven_coprime_units :
    (Nat.card Frˣ).Coprime 7 := by
  rw [Nat.card_eq_fintype_card, ZMod.card_units]
  decide

/-- Under every key the cipher permutes the field. -/
theorem encrypt_bijective
    (key : Fr) :
    Function.Bijective
      (KeyAlternating.encrypt 7 Circuit.mimcConstant nrounds key) :=
  KeyAlternating.encrypt_bijective (by decide) seven_coprime_units
    Circuit.mimcConstant nrounds key

/-- Inputs give one result exactly if they are congruent. -/
theorem mimc7Single_eq_iff
    (k first second : ℕ) :
    mimc7Single first k = mimc7Single second k ↔
      first ≡ second [MOD bn254Prime] := by
  have reduced :
      ∀ x, (mimc7Single x k : Fr).val = mimc7Single x k := by
    intro x
    rw [ZMod.val_natCast, Nat.mod_eq_of_lt (mimc7Single_lt x k)]
  rw [← ZMod.natCast_eq_natCast_iff]
  constructor
  · intro same
    have sameCipher := congrArg (Nat.cast : ℕ → Fr) same
    rw [cast_mimc7Single, cast_mimc7Single] at sameCipher
    exact (encrypt_bijective (k : Fr)).injective sameCipher
  · intro same
    rw [← reduced first, ← reduced second, cast_mimc7Single,
      cast_mimc7Single, same]

/-- `mimc7_single` permutes the numbers below the prime. -/
theorem mimc7Single_bijOn
    (k : ℕ) :
    Set.BijOn (fun x => mimc7Single x k)
      {x | x < bn254Prime} {x | x < bn254Prime} := by
  refine ⟨fun x _ => mimc7Single_lt x k, ?_, ?_⟩
  · intro first firstBelow second secondBelow same
    exact
      Nat.ModEq.eq_of_lt_of_lt ((mimc7Single_eq_iff k first second).mp same)
        firstBelow secondBelow
  · intro result below
    obtain ⟨input, encrypted⟩ :=
      (encrypt_bijective (k : Fr)).surjective (result : Fr)
    refine ⟨input.val, ZMod.val_lt input, ?_⟩
    have sameElement :
        (mimc7Single input.val k : Fr) = (result : Fr) := by
      rw [cast_mimc7Single, ZMod.natCast_zmod_val, encrypted]
    exact
      Nat.ModEq.eq_of_lt_of_lt
        ((ZMod.natCast_eq_natCast_iff _ _ _).mp sameElement)
        (mimc7Single_lt _ _) below

/-- Arrays of reduced numbers are equal exactly if the numbers are. -/
theorem fieldToBytes_eq_iff
    {first second : ℕ}
    (firstBelow : first < bn254Prime)
    (secondBelow : second < bn254Prime) :
    fieldToBytes first = fieldToBytes second ↔ first = second := by
  constructor
  · intro same
    have numbers := congrArg Bytes32.toNat same
    rw [toNat_fieldToBytes (fits_of_lt_prime firstBelow),
      toNat_fieldToBytes (fits_of_lt_prime secondBelow)] at numbers
    exact numbers
  · intro same
    rw [same]

/--
Single-input MiMC7 is a keyed permutation: under every key `mimc7_single` maps
the numbers below the prime one-to-one onto themselves.  On two arrays
`mimc7_hash_single` does not panic, and it returns the same array exactly if
the arrays are congruent modulo the prime.
-/
theorem mimc7Single_permutes
    (k : ℕ)
    (a b : Bytes32) :
    Set.BijOn (fun x => mimc7Single x k)
        {x | x < bn254Prime} {x | x < bn254Prime} ∧
      (∃ digest, mimc7HashSingle a.toList = .ok digest) ∧
      (mimc7HashSingle a.toList = mimc7HashSingle b.toList ↔
        a.toNat ≡ b.toNat [MOD bn254Prime]) := by
  refine ⟨mimc7Single_bijOn k, ⟨_, mimc7HashSingle_toList a⟩, ?_⟩
  rw [mimc7HashSingle_toList, mimc7HashSingle_toList, Except.ok.injEq,
    fieldToBytes_eq_iff (mimc7Single_lt _ 0) (mimc7Single_lt _ 0),
    mimc7Single_eq_iff, ← ZMod.natCast_eq_natCast_iff,
    ← ZMod.natCast_eq_natCast_iff, cast_bytesToField, cast_bytesToField]
  rfl

end Permutation

end StarkCash.Rust
