import StarkCash.ProofCodec

namespace StarkCash.Rust

/-!
# Canonicity of the proof format

The decoder of three counted strings is sound: what it reads is encoded at the
front of its input.  `from_bytes` drops the bytes behind the third component,
and it panics when the end of a component wraps around `usize`.  Outside these
two kinds of slices, and on no slice of them, the format is canonical.
-/

open Framing (counted Sound)

section Ends

variable
    {bytes : List UInt8}
    {target : Target}

/-- Where the third of the counted components ends. -/
def thirdEnd (bytes : List UInt8) : ℕ :=
  (componentEnd bytes)^[3] 0

/-- A component ends behind its length field. -/
theorem le_componentEnd
    (bytes : List UInt8)
    (pos : ℕ) :
    pos + 4 ≤ componentEnd bytes pos :=
  Nat.le_add_right _ _

/-- Components end behind the position they start from. -/
theorem le_iterate_componentEnd
    (bytes : List UInt8)
    (count pos : ℕ) :
    pos ≤ (componentEnd bytes)^[count] pos := by
  induction count generalizing pos with
  | zero =>
      exact le_rfl
  | succ count inductionHypothesis =>
      have first := le_componentEnd bytes pos
      have others := inductionHypothesis (componentEnd bytes pos)
      rw [Function.iterate_succ_apply]
      omega

/-- A counted string is read where its end is inside the slice. -/
theorem counted_of_ends
    {pos : ℕ}
    (ends : componentEnd bytes pos ≤ bytes.length) :
    ∃ component,
      counted 4 (bytes.drop pos) =
        some (component, bytes.drop (componentEnd bytes pos)) := by
  have counting :=
    counted_of_room ((le_componentEnd bytes pos).trans ends)
  rw [if_neg (Nat.not_lt.mpr ends)] at counting
  exact ⟨_, counting⟩

/-- A counted string that is read ends inside the slice. -/
theorem counted_ends
    {pos : ℕ}
    {component rest : List UInt8}
    (decoded : counted 4 (bytes.drop pos) = some (component, rest)) :
    componentEnd bytes pos ≤ bytes.length ∧
      rest = bytes.drop (componentEnd bytes pos) := by
  by_cases room : pos + 4 ≤ bytes.length
  · rw [counted_of_room room] at decoded
    split at decoded
    · cases decoded
    · rename_i inside
      cases decoded
      exact ⟨Nat.not_lt.mp inside, rfl⟩
  · rw [counted_of_no_room (Nat.lt_of_not_le room)] at decoded
    cases decoded

/-- Three components are read where the third ends inside the slice. -/
theorem components_of_ends
    (ends : thirdEnd bytes ≤ bytes.length) :
    ∃ read, components bytes = some (read, bytes.drop (thirdEnd bytes)) := by
  have endsC : componentEnd bytes (componentEnd bytes
      (componentEnd bytes 0)) ≤ bytes.length := ends
  have behindB := le_componentEnd bytes
    (componentEnd bytes (componentEnd bytes 0))
  have behindA := le_componentEnd bytes (componentEnd bytes 0)
  obtain ⟨a, countedA⟩ :=
    counted_of_ends (show componentEnd bytes 0 ≤ bytes.length by omega)
  obtain ⟨b, countedB⟩ :=
    counted_of_ends
      (show componentEnd bytes (componentEnd bytes 0) ≤ bytes.length by omega)
  obtain ⟨c, countedC⟩ := counted_of_ends endsC
  rw [List.drop_zero] at countedA
  refine ⟨(a, b, c), ?_⟩
  simp only [components, Framing.Decoder.pair, countedA, countedB, countedC]
  rfl

/-- The third of the components that are read ends inside the slice. -/
theorem components_ends
    {read : List UInt8 × List UInt8 × List UInt8}
    {rest : List UInt8}
    (decoded : components bytes = some (read, rest)) :
    thirdEnd bytes ≤ bytes.length ∧ rest = bytes.drop (thirdEnd bytes) := by
  rw [← List.drop_zero (l := bytes)] at decoded
  unfold components Framing.Decoder.pair at decoded
  split at decoded
  · cases decoded
  · rename_i a afterA countedA
    obtain ⟨-, rfl⟩ := counted_ends countedA
    split at decoded
    · cases decoded
    · rename_i others afterOthers readOthers
      cases decoded
      split at readOthers
      · cases readOthers
      · rename_i b afterB countedB
        obtain ⟨-, rfl⟩ := counted_ends countedB
        split at readOthers
        · cases readOthers
        · rename_i c afterC countedC
          cases readOthers
          exact counted_ends countedC

/-- The components that are read are encoded at the front of the slice. -/
theorem components_sound :
    Sound components
      fun read => (Proof.ofComponents read).toBytes := by
  intro input read rest decoded
  have single := Framing.counted_sound 4
  have encoded := single.pair (single.pair single) _ _ _ decoded
  rw [encoded]
  simp only [Proof.toBytes, Proof.componentBytes, Proof.ofComponents,
    Framing.frame, List.append_assoc]

/-- Components that end inside the slice do not wrap. -/
theorem Target.noWrapFrom_of_ends
    {count pos : ℕ}
    (inMemory : bytes.length < 2 ^ (target.width.bits - 1))
    (ends : (componentEnd bytes)^[count] pos ≤ bytes.length) :
    target.NoWrapFrom bytes count pos := by
  induction count generalizing pos with
  | zero =>
      trivial
  | succ count inductionHypothesis =>
      intro room
      rw [Function.iterate_succ_apply] at ends
      have inside :=
        (le_iterate_componentEnd bytes count (componentEnd bytes pos)).trans
          ends
      have wide :
          2 ^ (target.width.bits - 1) ≤ 2 ^ target.width.bits :=
        Nat.pow_le_pow_right (by decide) (Nat.sub_le _ _)
      exact
        ⟨(inside.trans_lt inMemory).trans_le wide, fun _ =>
          inductionHypothesis ends⟩

end Ends

section Panics

variable
    {bytes : List UInt8}
    {target : Target}
    {Answer : Type}

/--
If one of the next ends wraps, reading the next component panics or the rest
does, from where that component ends.
-/
theorem Target.component_panics
    {count pos : ℕ}
    {message : String}
    {rest : List UInt8 × ℕ → Fallible Answer}
    (inMemory : bytes.length < 2 ^ (target.width.bits - 1))
    (wraps : ¬ target.NoWrapFrom bytes (count + 1) pos)
    (restPanics :
      ∀ component,
        componentEnd bytes pos ≤ bytes.length →
        ¬ target.NoWrapFrom bytes count (componentEnd bytes pos) →
        ∃ panic,
          rest (component, componentEnd bytes pos) = .error panic) :
    ∃ panic,
      (target.readComponent bytes message pos >>= rest) = .error panic := by
  simp only [Target.NoWrapFrom, Classical.not_imp] at wraps
  obtain ⟨room, wrapsHere⟩ := wraps
  by_cases noWrap : componentEnd bytes pos < 2 ^ target.width.bits
  · obtain ⟨inside, wrapsLater⟩ :
        componentEnd bytes pos ≤ bytes.length ∧
          ¬ target.NoWrapFrom bytes count (componentEnd bytes pos) := by
      by_contra noLater
      exact wrapsHere ⟨noWrap, fun inside =>
        by_contra fun wrapsLater => noLater ⟨inside, wrapsLater⟩⟩
    have reading :=
      Target.readComponent_of_room message inMemory room noWrap
    rw [if_neg (Nat.not_lt.mpr inside)] at reading
    rw [Imperative.returned_bind reading]
    exact restPanics _ inside wrapsLater
  · obtain ⟨panic, panics⟩ :=
      Target.readComponent_of_wrap message inMemory room
        (Nat.not_lt.mp noWrap)
    exact ⟨panic, Imperative.failed_bind panics⟩

/-- So it is behind the check of the length. -/
theorem Target.checkedComponent_panics
    {count pos : ℕ}
    {missing message : String}
    {rest : List UInt8 × ℕ → Fallible Answer}
    (inMemory : bytes.length < 2 ^ (target.width.bits - 1))
    (inRange : pos ≤ bytes.length)
    (wraps : ¬ target.NoWrapFrom bytes (count + 1) pos)
    (restPanics :
      ∀ component,
        componentEnd bytes pos ≤ bytes.length →
        ¬ target.NoWrapFrom bytes count (componentEnd bytes pos) →
        ∃ panic,
          rest (component, componentEnd bytes pos) = .error panic) :
    ∃ panic,
      (target.requireLength bytes missing pos >>= fun _ =>
          target.readComponent bytes message pos >>= rest) =
        .error panic := by
  have room : pos + 4 ≤ bytes.length := by
    by_contra noRoom
    exact wraps fun room => absurd room noRoom
  have checking := Target.requireLength_eq missing inMemory inRange
  rw [if_neg (Nat.not_lt.mpr room)] at checking
  rw [Imperative.returned_bind checking]
  exact Target.component_panics inMemory wraps restPanics

/-- `from_bytes` panics where the end of a component wraps. -/
theorem Target.fromBytes_of_wrap
    (inMemory : bytes.length < 2 ^ (target.width.bits - 1))
    (wraps : ¬ target.NoWrap bytes) :
    ∃ panic, target.fromBytes bytes = .error panic := by
  simp only [Target.NoWrap, Classical.not_imp] at wraps
  obtain ⟨long, wrapsA⟩ := wraps
  unfold Target.fromBytes
  rw [if_neg (Nat.not_lt.mpr long)]
  refine Target.component_panics inMemory wrapsA ?_
  intro a insideA wrapsB
  refine Target.checkedComponent_panics inMemory insideA wrapsB ?_
  intro b insideB wrapsC
  refine Target.checkedComponent_panics inMemory insideB wrapsC ?_
  intro c insideC wrapsLater
  exact absurd trivial wrapsLater

end Panics

section Canonicity

variable {target : Target}

/-- What canonicity asks of `from_bytes` on one byte string. -/
structure Target.CanonicalAt
    (target : Target)
    (bytes : List UInt8) : Prop where
  encoded :
    ∀ proof,
      target.fromBytes bytes = .ok (.ok proof) →
      bytes = proof.toBytes
  refused :
    (¬ ∃ proof : Proof, bytes = proof.toBytes) →
    ∃ error, target.fromBytes bytes = .ok (.error error)

/-- No end that is computed wraps, and no byte stands behind the third one. -/
structure Target.EndsExactly
    (target : Target)
    (bytes : List UInt8) : Prop where
  noWrap : target.NoWrap bytes
  noSurplus : bytes.length ≤ thirdEnd bytes

/-- No end wraps in the bytes of a proof. -/
theorem Target.noWrap_of_encoded
    {proof : Proof}
    (inMemory : proof.toBytes.length < 2 ^ (target.width.bits - 1)) :
    target.NoWrap proof.toBytes := by
  intro _
  cases width : target.width with
  | bits64 =>
      exact Target.noWrapFrom_of_bits64 width inMemory 3 0
  | bits32 =>
      have total :
          proof.toBytes.length =
            proof.a.length + proof.b.length + proof.c.length + 12 := by
        simp only [Proof.toBytes, Proof.componentBytes, List.length_append,
          Framing.length_littleEndian]
        omega
      have small : proof.toBytes.length < 2 ^ 31 := by
        rw [width] at inMemory
        exact inMemory
      have delimits :
          Framing.Delimits components proof.toBytes
            (proof.a, proof.b, proof.c) :=
        toBytes_delimits (by omega) (by omega) (by omega)
      have decoded := delimits.complete []
      rw [List.append_nil] at decoded
      exact Target.noWrapFrom_of_ends inMemory (components_ends decoded).1

/-- A slice that ends exactly and is decoded is the encoding of its proof. -/
theorem Target.EndsExactly.encoded
    {bytes : List UInt8}
    {proof : Proof}
    (inMemory : bytes.length < 2 ^ (target.width.bits - 1))
    (exactly : target.EndsExactly bytes)
    (decoded : target.fromBytes bytes = .ok (.ok proof)) :
    bytes = proof.toBytes := by
  rcases Target.fromBytes_refines inMemory exactly.noWrap with
    ⟨read, rest, readComponents, result⟩ | ⟨_, error, failed⟩
  · rw [decoded] at result
    cases result
    obtain ⟨_, rfl⟩ := components_ends readComponents
    have whole := components_sound _ _ _ readComponents
    rw [List.drop_eq_nil_of_le exactly.noSurplus, List.append_nil] at whole
    exact whole
  · rw [decoded] at failed
    cases failed

/-- A slice that ends exactly is the encoding of a proof or is refused. -/
theorem Target.EndsExactly.canonicalAt
    {bytes : List UInt8}
    (inMemory : bytes.length < 2 ^ (target.width.bits - 1))
    (exactly : target.EndsExactly bytes) :
    target.CanonicalAt bytes := by
  constructor
  · intro proof decoded
    exact exactly.encoded inMemory decoded
  · intro notEncoded
    rcases Target.fromBytes_refines inMemory exactly.noWrap with
      ⟨read, rest, _, result⟩ | ⟨_, failed⟩
    · exact absurd ⟨_, exactly.encoded inMemory result⟩ notEncoded
    · exact failed

/-- Where the format is canonical the slice ends exactly. -/
theorem Target.CanonicalAt.endsExactly
    {bytes : List UInt8}
    (inMemory : bytes.length < 2 ^ (target.width.bits - 1))
    (canonical : target.CanonicalAt bytes) :
    target.EndsExactly bytes := by
  have noWrap : target.NoWrap bytes := by
    by_contra wraps
    have notEncoded : ¬ ∃ proof : Proof, bytes = proof.toBytes := by
      rintro ⟨proof, rfl⟩
      exact wraps (Target.noWrap_of_encoded inMemory)
    obtain ⟨panic, panics⟩ := Target.fromBytes_of_wrap inMemory wraps
    obtain ⟨error, failed⟩ := canonical.refused notEncoded
    rw [panics] at failed
    cases failed
  refine ⟨noWrap, ?_⟩
  by_contra surplus
  have ends : thirdEnd bytes ≤ bytes.length :=
    Nat.le_of_lt (Nat.not_le.mp surplus)
  obtain ⟨read, readComponents⟩ := components_of_ends ends
  rcases Target.fromBytes_refines inMemory noWrap with
    ⟨other, rest, readOther, result⟩ | ⟨unread, _⟩
  · rw [readComponents] at readOther
    cases readOther
    have whole :
        bytes =
          (Proof.ofComponents read).toBytes ++ bytes.drop (thirdEnd bytes) :=
      components_sound _ _ _ readComponents
    have lengths := congrArg List.length whole
    rw [← canonical.encoded _ result, List.length_append,
      List.length_drop] at lengths
    omega
  · rw [readComponents] at unread
    cases unread

/--
Canonicity of the format, slice by slice, on every target: `from_bytes` reads
nothing but encodings and refuses everything else without panic exactly on the
slices that end exactly, and no two of them decode to one proof.
-/
theorem canonicalAt_iff_endsExactly
    (target : Target)
    (slice : target.Slice) :
    (target.CanonicalAt slice.bytes ↔ target.EndsExactly slice.bytes) ∧
      ∀ (other : target.Slice) (proof : Proof),
        target.EndsExactly slice.bytes →
        target.EndsExactly other.bytes →
        target.fromBytes slice.bytes = .ok (.ok proof) →
        target.fromBytes other.bytes = .ok (.ok proof) →
        slice.bytes = other.bytes := by
  constructor
  · constructor
    · intro canonical
      exact canonical.endsExactly slice.inMemory
    · intro exactly
      exact exactly.canonicalAt slice.inMemory
  · intro other proof exactly otherExactly decoded otherDecoded
    calc
      slice.bytes = proof.toBytes :=
        exactly.encoded slice.inMemory decoded
      _ = other.bytes :=
        (otherExactly.encoded other.inMemory otherDecoded).symm

/-- `from_bytes` does not see what stands behind an encoding. -/
theorem fromBytes_append
    {proof : Proof}
    {surplus : List UInt8}
    (aFits : proof.a.length < 2 ^ 32)
    (bFits : proof.b.length < 2 ^ 32)
    (cFits : proof.c.length < 2 ^ 32)
    (inMemory : (proof.toBytes ++ surplus).length < 2 ^ 63) :
    Proof.fromBytes (proof.toBytes ++ surplus) = .ok (.ok proof) := by
  have decoded := (toBytes_delimits aFits bFits cFits).complete surplus
  rcases fromBytes_refines inMemory with
    ⟨read, rest, decodedRead, result⟩ | ⟨undecoded, _⟩
  · rw [decoded] at decodedRead
    cases decodedRead
    exact result
  · rw [decoded] at undecoded
    cases undecoded

/--
A byte behind an encoding is not seen: two byte strings decode to one proof.
And on a target of 32 bits, with or without overflow checks, a length of
`2 ^ 32 - 1` makes `from_bytes` panic.
-/
theorem fromBytes_not_canonical :
    Proof.fromBytes (Proof.toBytes ⟨[1], [2], [3]⟩) =
        .ok (.ok ⟨[1], [2], [3]⟩) ∧
      Proof.fromBytes (Proof.toBytes ⟨[1], [2], [3]⟩ ++ [0]) =
        .ok (.ok ⟨[1], [2], [3]⟩) ∧
      ¬ Target.checked64.CanonicalAt
          (Proof.toBytes ⟨[1], [2], [3]⟩ ++ [0]) ∧
      ∀ overflowChecks,
        (∃ panic,
          Target.fromBytes ⟨.bits32, overflowChecks⟩
              [255, 255, 255, 255, 0, 0, 0, 0, 0, 0, 0, 0] =
            .error panic) ∧
          ¬ Target.CanonicalAt ⟨.bits32, overflowChecks⟩
              [255, 255, 255, 255, 0, 0, 0, 0, 0, 0, 0, 0] := by
  have decoded :
      ∀ surplus : List UInt8,
        surplus.length ≤ 1 →
        Proof.fromBytes (Proof.toBytes ⟨[1], [2], [3]⟩ ++ surplus) =
          .ok (.ok ⟨[1], [2], [3]⟩) := by
    intro surplus short
    refine fromBytes_append (by decide) (by decide) (by decide) ?_
    have encoded : (Proof.toBytes ⟨[1], [2], [3]⟩).length = 15 := by decide
    rw [List.length_append, encoded]
    omega
  refine ⟨decoded [] (by decide), decoded [0] (by decide), ?_, ?_⟩
  · intro canonical
    have same := canonical.encoded ⟨[1], [2], [3]⟩ (decoded [0] (by decide))
    exact absurd same (by decide)
  · intro overflowChecks
    have inMemory :
        List.length
            ([255, 255, 255, 255, 0, 0, 0, 0, 0, 0, 0, 0] : List UInt8) <
          2 ^ (UsizeWidth.bits32.bits - 1) := by
      decide
    have wraps :
        ¬ Target.NoWrap ⟨.bits32, overflowChecks⟩
            [255, 255, 255, 255, 0, 0, 0, 0, 0, 0, 0, 0] := by
      have beyond :
          ¬ componentEnd [255, 255, 255, 255, 0, 0, 0, 0, 0, 0, 0, 0] 0 <
              2 ^ UsizeWidth.bits32.bits := by
        decide
      intro noWrap
      exact beyond (noWrap (by decide) (by decide)).1
    constructor
    · exact Target.fromBytes_of_wrap inMemory wraps
    · intro canonical
      exact wraps (canonical.endsExactly inMemory).noWrap

end Canonicity

end StarkCash.Rust
