import StarkCash.RustProof

namespace StarkCash.Rust

/-!
# Decoding of proofs

A proof is written as three counted byte strings.  On every slice that fits
the memory `from_bytes` returns what the abstract decoder of three counted
strings reads, or an error where that decoder reads nothing, and never panics
unless the end of a component wraps around `usize`, which takes 32 bits.
Round trip and truncation are then facts about self-delimiting codes.
-/

open Framing (counted Decoder Delimits littleEndianValue)

section Slices

variable
    {bytes : List UInt8}
    {target : Target}

/-- Inside the memory positions are added without overflow. -/
theorem Target.addUsize_of_lt
    {left right : ℕ}
    (inRange : left + right < 2 ^ target.width.bits) :
    target.addUsize left right = .ok (left + right) :=
  if_pos inRange

/-- A length field behind a slice is inside the memory. -/
theorem Target.add_lt_of_le
    {pos offset : ℕ}
    (inMemory : bytes.length < 2 ^ (target.width.bits - 1))
    (inRange : pos ≤ bytes.length)
    (small : offset ≤ 4) :
    pos + offset < 2 ^ target.width.bits := by
  cases width : target.width with
  | bits32 =>
      rw [width] at inMemory
      simp only [UsizeWidth.bits] at inMemory ⊢
      omega
  | bits64 =>
      rw [width] at inMemory
      simp only [UsizeWidth.bits] at inMemory ⊢
      omega

/-- An index in range reads its byte. -/
theorem indexAt_of_lt
    {index : ℕ}
    (inRange : index < bytes.length) :
    indexAt bytes index = .ok bytes[index] := by
  rw [indexAt, List.getElem?_eq_getElem inRange]

/-- A range in order and inside the slice reads its bytes. -/
theorem slice_of_le
    {start stop : ℕ}
    (inOrder : start ≤ stop)
    (inRange : stop ≤ bytes.length) :
    slice bytes start stop =
      .ok ((bytes.drop start).take (stop - start)) :=
  if_pos ⟨inOrder, inRange⟩

/-- The four bytes from a position. -/
theorem take_four_drop
    {pos : ℕ}
    (room : pos + 4 ≤ bytes.length) :
    (bytes.drop pos).take 4 =
      [bytes[pos], bytes[pos + 1], bytes[pos + 2], bytes[pos + 3]] := by
  have byte0 := List.drop_eq_getElem_cons (l := bytes) (i := pos) (by omega)
  have byte1 :=
    List.drop_eq_getElem_cons (l := bytes) (i := pos + 1) (by omega)
  have byte2 :=
    List.drop_eq_getElem_cons (l := bytes) (i := pos + 2) (by omega)
  have byte3 :=
    List.drop_eq_getElem_cons (l := bytes) (i := pos + 3) (by omega)
  rw [byte0, byte1, byte2, byte3]
  rfl

/-- With four bytes left, they are read as the length. -/
theorem Target.readU32_of_room
    {pos : ℕ}
    (inMemory : bytes.length < 2 ^ (target.width.bits - 1))
    (room : pos + 4 ≤ bytes.length) :
    target.readU32 bytes pos =
      .ok (littleEndianValue ((bytes.drop pos).take 4)) := by
  have added :
      ∀ offset,
        offset ≤ 4 →
        target.addUsize pos offset = .ok (pos + offset) := by
    intro offset small
    exact
      target.addUsize_of_lt
        (Target.add_lt_of_le inMemory (by omega) small)
  simp only [Target.readU32, added 1 (by omega), added 2 (by omega),
    added 3 (by omega),
    indexAt_of_lt (show pos < bytes.length by omega),
    indexAt_of_lt (show pos + 1 < bytes.length by omega),
    indexAt_of_lt (show pos + 2 < bytes.length by omega),
    indexAt_of_lt (show pos + 3 < bytes.length by omega),
    take_four_drop room, Imperative.ok_bind]
  rfl

end Slices

section Reading

variable
    {bytes : List UInt8}
    {target : Target}

/--
A component is read as the counted string at the position, or an error is
returned because there is none.
-/
def ReadsCounted
    (bytes : List UInt8)
    (pos : ℕ)
    (reading : Fallible (List UInt8 × ℕ)) : Prop :=
  (∃ component stop,
      counted 4 (bytes.drop pos) = some (component, bytes.drop stop) ∧
        stop ≤ bytes.length ∧
        reading = .ok (.ok (component, stop))) ∨
    (counted 4 (bytes.drop pos) = none ∧
      ∃ error, reading = .ok (.error error))

/-- Where the component at a position ends, by its length. -/
def componentEnd (bytes : List UInt8) (pos : ℕ) : ℕ :=
  pos + 4 + littleEndianValue ((bytes.drop pos).take 4)

/-- A component ends less than `2 ^ 32` bytes behind its length field. -/
theorem componentEnd_lt
    {pos : ℕ}
    (room : pos + 4 ≤ bytes.length) :
    componentEnd bytes pos < pos + 4 + 2 ^ 32 := by
  have header : ((bytes.drop pos).take 4).length = 4 := by
    rw [List.length_take, List.length_drop]
    omega
  have bound := Framing.littleEndianValue_lt ((bytes.drop pos).take 4)
  rw [header] at bound
  exact Nat.add_lt_add_left (bound.trans_eq (by decide)) _

/-- Up to its test against the slice a component is read like this. -/
theorem Target.readComponent_eq
    {pos : ℕ}
    (message : String)
    (inMemory : bytes.length < 2 ^ (target.width.bits - 1))
    (room : pos + 4 ≤ bytes.length) :
    target.readComponent bytes message pos =
      (do
        let stop ←
          target.addUsize (pos + 4)
            (littleEndianValue ((bytes.drop pos).take 4))
        if bytes.length < stop then
          throw (.serializationError message)
        else
          let component ← slice bytes (pos + 4) stop
          return (component, stop)) := by
  have afterLength : target.addUsize pos 4 = .ok (pos + 4) :=
    target.addUsize_of_lt
      (Target.add_lt_of_le inMemory (by omega) le_rfl)
  unfold Target.readComponent
  rw [Imperative.lift_bind (Target.readU32_of_room inMemory room),
    Imperative.lift_bind afterLength]

/-- With four bytes left, the bytes behind them are the component. -/
theorem Target.readComponent_of_room
    {pos : ℕ}
    (message : String)
    (inMemory : bytes.length < 2 ^ (target.width.bits - 1))
    (room : pos + 4 ≤ bytes.length)
    (noWrap : componentEnd bytes pos < 2 ^ target.width.bits) :
    target.readComponent bytes message pos =
      if bytes.length < componentEnd bytes pos then
        .ok (.error (.serializationError message))
      else
        .ok
          (.ok
            ((bytes.drop (pos + 4)).take
                (componentEnd bytes pos - (pos + 4)),
              componentEnd bytes pos)) := by
  have afterComponent :
      target.addUsize (pos + 4)
          (littleEndianValue ((bytes.drop pos).take 4)) =
        .ok (componentEnd bytes pos) :=
    target.addUsize_of_lt noWrap
  rw [Target.readComponent_eq message inMemory room,
    Imperative.lift_bind afterComponent]
  by_cases beyond : bytes.length < componentEnd bytes pos
  · rw [if_pos beyond, if_pos beyond]
    rfl
  · have taken :
        slice bytes (pos + 4) (componentEnd bytes pos) =
          .ok
            ((bytes.drop (pos + 4)).take
              (componentEnd bytes pos - (pos + 4))) :=
      slice_of_le (Nat.le_add_right (pos + 4) _) (Nat.not_lt.mp beyond)
    rw [if_neg beyond, if_neg beyond, Imperative.lift_bind taken]
    rfl

/--
A component whose end wraps panics: at the addition where overflow is checked,
else at the slice, which then ends before it starts.
-/
theorem Target.readComponent_of_wrap
    {pos : ℕ}
    (message : String)
    (inMemory : bytes.length < 2 ^ (target.width.bits - 1))
    (room : pos + 4 ≤ bytes.length)
    (wraps : 2 ^ target.width.bits ≤ componentEnd bytes pos) :
    ∃ panic, target.readComponent bytes message pos = .error panic := by
  have within := componentEnd_lt room
  have wide : 2 ^ 32 ≤ 2 ^ target.width.bits := by
    apply Nat.pow_le_pow_right (by decide)
    cases target.width <;> decide
  have noSum :
      ¬ pos + 4 + littleEndianValue ((bytes.drop pos).take 4) <
        2 ^ target.width.bits :=
    Nat.not_lt.mpr wraps
  rw [Target.readComponent_eq message inMemory room]
  cases checks : target.overflowChecks with
  | true =>
      have overflows :
          target.addUsize (pos + 4)
              (littleEndianValue ((bytes.drop pos).take 4)) =
            .error ⟨"attempt to add with overflow"⟩ := by
        simp only [Target.addUsize, noSum, checks, ↓reduceIte]
      rw [overflows]
      exact ⟨_, rfl⟩
  | false =>
      have wrapped :
          target.addUsize (pos + 4)
              (littleEndianValue ((bytes.drop pos).take 4)) =
            .ok (componentEnd bytes pos % 2 ^ target.width.bits) := by
        simp only [Target.addUsize, noSum, checks, Bool.false_eq_true,
          ↓reduceIte]
        rfl
      have reduced :
          componentEnd bytes pos % 2 ^ target.width.bits < pos + 4 := by
        have inside : pos + 4 < 2 ^ target.width.bits :=
          Target.add_lt_of_le inMemory (by omega) le_rfl
        rw [Nat.mod_eq_sub_mod wraps, Nat.mod_eq_of_lt (by omega)]
        omega
      have outOfOrder :
          slice bytes (pos + 4)
              (componentEnd bytes pos % 2 ^ target.width.bits) =
            .error ⟨"slice index out of range"⟩ :=
        if_neg fun ordered => Nat.not_lt.mpr ordered.1 reduced
      rw [Imperative.lift_bind wrapped, if_neg (by omega), outOfOrder]
      exact ⟨_, rfl⟩

/-- The abstract decoder takes the same bytes. -/
theorem counted_of_room
    {pos : ℕ}
    (room : pos + 4 ≤ bytes.length) :
    counted 4 (bytes.drop pos) =
      if bytes.length < componentEnd bytes pos then
        none
      else
        some
          ((bytes.drop (pos + 4)).take
              (componentEnd bytes pos - (pos + 4)),
            bytes.drop (componentEnd bytes pos)) := by
  have lengthIs :
      componentEnd bytes pos - (pos + 4) =
        littleEndianValue ((bytes.drop pos).take 4) :=
    Nat.add_sub_cancel_left ..
  have sameTest :
      ((bytes.drop pos).length < 4 ∨
          (bytes.drop (pos + 4)).length <
            littleEndianValue ((bytes.drop pos).take 4)) ↔
        bytes.length < componentEnd bytes pos := by
    simp only [List.length_drop, componentEnd]
    omega
  simp only [counted, List.drop_drop, sameTest, lengthIs]
  rfl

/-- Without four bytes left there is no counted string. -/
theorem counted_of_no_room
    {pos : ℕ}
    (noRoom : bytes.length < pos + 4) :
    counted 4 (bytes.drop pos) = none := by
  have short : (bytes.drop pos).length < 4 := by
    rw [List.length_drop]
    omega
  simp only [counted, short, true_or, ↓reduceIte]

/--
No end of a component wraps among the next ones, as far as they are read.
-/
def Target.NoWrapFrom
    (target : Target)
    (bytes : List UInt8) : ℕ → ℕ → Prop
  | 0, _ => True
  | count + 1, pos =>
      pos + 4 ≤ bytes.length →
        componentEnd bytes pos < 2 ^ target.width.bits ∧
          (componentEnd bytes pos ≤ bytes.length →
            target.NoWrapFrom bytes count (componentEnd bytes pos))

/-- With four bytes left a component that does not wrap is read. -/
theorem Target.readComponent_reads
    {pos count : ℕ}
    (message : String)
    (inMemory : bytes.length < 2 ^ (target.width.bits - 1))
    (room : pos + 4 ≤ bytes.length)
    (noWrap : target.NoWrapFrom bytes (count + 1) pos) :
    ReadsCounted bytes pos (target.readComponent bytes message pos) := by
  have reading :=
    Target.readComponent_of_room message inMemory room (noWrap room).1
  have counting := counted_of_room room
  by_cases beyond : bytes.length < componentEnd bytes pos
  · right
    rw [if_pos beyond] at reading counting
    exact ⟨counting, _, reading⟩
  · left
    rw [if_neg beyond] at reading counting
    exact ⟨_, _, counting, Nat.not_lt.mp beyond, reading⟩

/-- A component that is read ends where its length says. -/
theorem Target.readComponent_stop
    {pos stop : ℕ}
    {message : String}
    {component : List UInt8}
    (inMemory : bytes.length < 2 ^ (target.width.bits - 1))
    (room : pos + 4 ≤ bytes.length)
    (read :
      target.readComponent bytes message pos =
        .ok (.ok (component, stop))) :
    stop = componentEnd bytes pos := by
  by_cases noWrap : componentEnd bytes pos < 2 ^ target.width.bits
  · rw [Target.readComponent_of_room message inMemory room noWrap] at read
    split at read
    · cases read
    · cases read
      rfl
  · obtain ⟨panic, panics⟩ :=
      Target.readComponent_of_wrap message inMemory room
        (Nat.not_lt.mp noWrap)
    rw [panics] at read
    cases read

/-- Where the length of a component is present or an error is returned. -/
theorem Target.requireLength_eq
    {pos : ℕ}
    (missing : String)
    (inMemory : bytes.length < 2 ^ (target.width.bits - 1))
    (inRange : pos ≤ bytes.length) :
    target.requireLength bytes missing pos =
      if bytes.length < pos + 4 then
        .ok (.error (.serializationError missing))
      else
        .ok (.ok ()) := by
  have afterLength : target.addUsize pos 4 = .ok (pos + 4) :=
    target.addUsize_of_lt (Target.add_lt_of_le inMemory inRange le_rfl)
  unfold Target.requireLength
  rw [Imperative.lift_bind afterLength]
  rfl

/-- Behind the check of its length a component is read without panic. -/
theorem Target.checkedComponent_reads
    {pos count : ℕ}
    (missing message : String)
    (inMemory : bytes.length < 2 ^ (target.width.bits - 1))
    (inRange : pos ≤ bytes.length)
    (noWrap : target.NoWrapFrom bytes (count + 1) pos) :
    ReadsCounted bytes pos
      (target.requireLength bytes missing pos >>= fun _ =>
        target.readComponent bytes message pos) := by
  have checking := Target.requireLength_eq missing inMemory inRange
  by_cases room : pos + 4 ≤ bytes.length
  · rw [if_neg (Nat.not_lt.mpr room)] at checking
    rw [Imperative.returned_bind checking]
    exact Target.readComponent_reads message inMemory room noWrap
  · rw [if_pos (Nat.lt_of_not_le room)] at checking
    right
    exact
      ⟨counted_of_no_room (Nat.lt_of_not_le room), _,
        Imperative.refused_bind checking⟩

/-- After a checked component that was read the next ones do not wrap. -/
theorem Target.NoWrapFrom.next
    {pos stop count : ℕ}
    {missing message : String}
    {component : List UInt8}
    (inMemory : bytes.length < 2 ^ (target.width.bits - 1))
    (inRange : pos ≤ bytes.length)
    (stopInRange : stop ≤ bytes.length)
    (noWrap : target.NoWrapFrom bytes (count + 1) pos)
    (read :
      (target.requireLength bytes missing pos >>= fun _ =>
          target.readComponent bytes message pos) =
        .ok (.ok (component, stop))) :
    target.NoWrapFrom bytes count stop := by
  have checking := Target.requireLength_eq missing inMemory inRange
  by_cases room : pos + 4 ≤ bytes.length
  · rw [if_neg (Nat.not_lt.mpr room)] at checking
    rw [Imperative.returned_bind checking] at read
    obtain rfl := Target.readComponent_stop inMemory room read
    exact (noWrap room).2 stopInRange
  · rw [if_pos (Nat.lt_of_not_le room)] at checking
    rw [Imperative.refused_bind checking] at read
    cases read

end Reading

section Decoding

/-- Four bytes count up to `2 ^ 32`. -/
theorem width_four
    {count : ℕ}
    (fits : count < 2 ^ 32) :
    count < 256 ^ 4 :=
  fits.trans_eq (by decide)

/-- The abstract decoder of a proof: three counted strings. -/
def components :
    Decoder UInt8 (List UInt8 × List UInt8 × List UInt8) :=
  (counted 4).pair ((counted 4).pair (counted 4))

/-- The proof of three components. -/
def Proof.ofComponents
    (read : List UInt8 × List UInt8 × List UInt8) : Proof where
  a := read.1
  b := read.2.1
  c := read.2.2

/-- Fewer than twelve bytes hold no three lengths. -/
theorem components_of_short
    {bytes : List UInt8}
    (short : bytes.length < 12) :
    components bytes = none := by
  have consumes := Framing.counted_consumes 4
  exact (consumes.pair (consumes.pair consumes)).eq_none_of_short short

/-- No end of a component that `from_bytes` reads wraps. -/
def Target.NoWrap (target : Target) (bytes : List UInt8) : Prop :=
  12 ≤ bytes.length → target.NoWrapFrom bytes 3 0

/-- With 64 bits nothing wraps. -/
theorem Target.noWrapFrom_of_bits64
    {target : Target}
    {bytes : List UInt8}
    (wide : target.width = .bits64)
    (inMemory : bytes.length < 2 ^ (target.width.bits - 1))
    (count pos : ℕ) :
    target.NoWrapFrom bytes count pos := by
  rw [wide] at inMemory
  simp only [UsizeWidth.bits] at inMemory
  induction count generalizing pos with
  | zero =>
      trivial
  | succ count inductionHypothesis =>
      intro room
      refine ⟨?_, fun _ => inductionHypothesis _⟩
      have within := componentEnd_lt room
      rw [wide]
      simp only [UsizeWidth.bits]
      omega

/--
On a slice that fits the memory and whose components do not wrap `from_bytes`
agrees with the abstract decoder: it returns the proof that is read, or an
error if none is read, and never panics.
-/
theorem Target.fromBytes_refines
    {target : Target}
    {bytes : List UInt8}
    (inMemory : bytes.length < 2 ^ (target.width.bits - 1))
    (noWrap : target.NoWrap bytes) :
    (∃ read rest,
        components bytes = some (read, rest) ∧
          target.fromBytes bytes = .ok (.ok (Proof.ofComponents read))) ∨
      (components bytes = none ∧
        ∃ error, target.fromBytes bytes = .ok (.error error)) := by
  by_cases short : bytes.length < 12
  · right
    refine ⟨components_of_short short, ?_⟩
    refine ⟨.serializationError "Insufficient bytes for proof", ?_⟩
    unfold Target.fromBytes
    rw [if_pos short]
    rfl
  · unfold Target.fromBytes components Decoder.pair
    rw [if_neg short]
    have room : 0 + 4 ≤ bytes.length := by
      omega
    have noWrapA := noWrap (Nat.not_lt.mp short)
    have firstReads :=
      Target.readComponent_reads "Invalid a length" inMemory room noWrapA
    rcases firstReads with
      ⟨a, afterA, countedA, inRangeA, readA⟩ | ⟨countedA, error, readA⟩
    · rw [List.drop_zero] at countedA
      obtain rfl := Target.readComponent_stop inMemory room readA
      have noWrapB := (noWrapA room).2 inRangeA
      rw [Imperative.returned_bind readA]
      simp only [countedA]
      rcases Target.checkedComponent_reads "Missing b length"
          "Invalid b length" inMemory inRangeA noWrapB with
        ⟨b, afterB, countedB, inRangeB, readB⟩ | ⟨countedB, error, readB⟩
      · have noWrapC := noWrapB.next inMemory inRangeA inRangeB readB
        rw [← bind_assoc, Imperative.returned_bind readB]
        simp only [countedB]
        rcases Target.checkedComponent_reads "Missing c length"
            "Invalid c length" inMemory inRangeB noWrapC with
          ⟨c, afterC, countedC, inRangeC, readC⟩ | ⟨countedC, error, readC⟩
        · left
          rw [← bind_assoc, Imperative.returned_bind readC]
          simp only [countedC]
          exact ⟨(a, b, c), bytes.drop afterC, rfl, rfl⟩
        · right
          rw [← bind_assoc, Imperative.refused_bind readC]
          simp only [countedC]
          exact ⟨trivial, error, rfl⟩
      · right
        rw [← bind_assoc, Imperative.refused_bind readB]
        simp only [countedB]
        exact ⟨trivial, error, rfl⟩
    · right
      rw [List.drop_zero] at countedA
      rw [Imperative.refused_bind readA]
      simp only [countedA]
      exact ⟨trivial, error, rfl⟩

/-- So does `Proof.fromBytes`, where nothing wraps. -/
theorem fromBytes_refines
    {bytes : List UInt8}
    (inMemory : bytes.length < 2 ^ 63) :
    (∃ read rest,
        components bytes = some (read, rest) ∧
          Proof.fromBytes bytes = .ok (.ok (Proof.ofComponents read))) ∨
      (components bytes = none ∧
        ∃ error, Proof.fromBytes bytes = .ok (.error error)) := by
  exact
    Target.fromBytes_refines inMemory fun _ =>
      Target.noWrapFrom_of_bits64 rfl inMemory 3 0

/-- The bytes of a proof delimit its components. -/
theorem toBytes_delimits
    {proof : Proof}
    (aFits : proof.a.length < 2 ^ 32)
    (bFits : proof.b.length < 2 ^ 32)
    (cFits : proof.c.length < 2 ^ 32) :
    Delimits components proof.toBytes (proof.a, proof.b, proof.c) := by
  have a := Framing.frame_delimits (width_four aFits)
  have b := Framing.frame_delimits (width_four bFits)
  have c := Framing.frame_delimits (width_four cFits)
  have delimits := a.pair (b.pair c)
  rw [← List.append_assoc] at delimits
  exact delimits

/-- The bytes of a proof with such components fit the memory. -/
theorem length_toBytes_lt
    {proof : Proof}
    (aFits : proof.a.length < 2 ^ 32)
    (bFits : proof.b.length < 2 ^ 32)
    (cFits : proof.c.length < 2 ^ 32) :
    proof.toBytes.length < 2 ^ 63 := by
  simp only [Proof.toBytes, Proof.componentBytes, List.length_append,
    Framing.length_littleEndian]
  omega

/--
Decoding undoes encoding and detects truncation: a proof whose components have
fewer than `2 ^ 32` bytes is read back, and on every strict prefix of its
bytes `from_bytes` returns an error without panic.
-/
theorem fromBytes_toBytes
    (proof : Proof)
    (aFits : proof.a.length < 2 ^ 32)
    (bFits : proof.b.length < 2 ^ 32)
    (cFits : proof.c.length < 2 ^ 32) :
    Proof.fromBytes proof.toBytes = .ok (.ok proof) ∧
      ∀ cut,
        cut <+: proof.toBytes →
        cut ≠ proof.toBytes →
        ∃ error, Proof.fromBytes cut = .ok (.error error) := by
  have delimits := toBytes_delimits aFits bFits cFits
  have inMemory := length_toBytes_lt aFits bFits cFits
  constructor
  · have decoded := delimits.complete []
    rw [List.append_nil] at decoded
    rcases fromBytes_refines inMemory with
      ⟨read, rest, decodedRead, result⟩ | ⟨undecoded, _⟩
    · rw [decoded] at decodedRead
      cases decodedRead
      exact result
    · rw [decoded] at undecoded
      cases undecoded
  · intro cut isPrefix strict
    have undecoded := delimits.truncated cut isPrefix strict
    rcases fromBytes_refines (isPrefix.length_le.trans_lt inMemory) with
      ⟨read, rest, decodedRead, _⟩ | ⟨_, failed⟩
    · rw [undecoded] at decodedRead
      cases decodedRead
    · exact failed

/-- A proof with an empty component is read back, and no prefix of it is. -/
theorem fromBytes_toBytes_empty :
    Proof.fromBytes (Proof.toBytes ⟨[1], [], [2, 3]⟩) =
        .ok (.ok ⟨[1], [], [2, 3]⟩) ∧
      ∀ cut,
        cut <+: Proof.toBytes ⟨[1], [], [2, 3]⟩ →
        cut ≠ Proof.toBytes ⟨[1], [], [2, 3]⟩ →
        ∃ error, Proof.fromBytes cut = .ok (.error error) :=
  fromBytes_toBytes ⟨[1], [], [2, 3]⟩ (by decide) (by decide) (by decide)

end Decoding

end StarkCash.Rust
