import Mathlib.Data.List.Infix
import StarkCash.BigEndian

namespace Framing

/-!
# Self-delimiting codes

A decoder reads a value from the front of a list and returns it with the rest
of the list.  A code word delimits itself when it is decoded whatever follows
it and no shorter cut of it is decoded at all.  Sequences of self-delimiting
code words delimit themselves, and a byte string behind its little-endian
length does.  A decoder is sound for an encoding when it reads code words only.
-/

variable {α β γ : Type*}

/-- Reads a value from the front of a list. -/
abbrev Decoder (α β : Type*) : Type _ :=
  List α → Option (β × List α)

/-- One value after another. -/
def Decoder.pair
    (first : Decoder α β)
    (second : Decoder α γ) : Decoder α (β × γ) :=
  fun input =>
    match first input with
    | none => none
    | some (firstValue, rest) =>
        match second rest with
        | none => none
        | some (secondValue, rest) => some ((firstValue, secondValue), rest)

/-- A code word is decoded with anything behind it, and not before its end. -/
structure Delimits
    (decoder : Decoder α β)
    (code : List α)
    (value : β) : Prop where
  complete :
    ∀ rest,
      decoder (code ++ rest) = some (value, rest)
  truncated :
    ∀ cut,
      cut <+: code →
      cut ≠ code →
      decoder cut = none

/-- A cut of a sequence ends in its first part or in its second. -/
theorem cut_append
    {first second cut : List α}
    (isPrefix : cut <+: first ++ second)
    (strict : cut ≠ first ++ second) :
    (cut <+: first ∧ cut ≠ first) ∨
      ∃ rest,
        cut = first ++ rest ∧ rest <+: second ∧ rest ≠ second := by
  rcases Nat.lt_or_ge cut.length first.length with shorter | longer
  · left
    constructor
    · exact
        List.prefix_of_prefix_length_le isPrefix
          (List.prefix_append first second) (Nat.le_of_lt shorter)
    · rintro rfl
      exact Nat.lt_irrefl _ shorter
  · right
    obtain ⟨rest, rfl⟩ :=
      List.prefix_of_prefix_length_le (List.prefix_append first second)
        isPrefix longer
    refine ⟨rest, rfl, (List.prefix_append_right_inj first).mp isPrefix, ?_⟩
    rintro rfl
    exact strict rfl

/-- Self-delimiting code words one after another delimit themselves. -/
theorem Delimits.pair
    {firstDecoder : Decoder α β}
    {secondDecoder : Decoder α γ}
    {firstCode secondCode : List α}
    {firstValue : β}
    {secondValue : γ}
    (first : Delimits firstDecoder firstCode firstValue)
    (second : Delimits secondDecoder secondCode secondValue) :
    Delimits (firstDecoder.pair secondDecoder) (firstCode ++ secondCode)
      (firstValue, secondValue) := by
  constructor
  · intro rest
    simp only [Decoder.pair, List.append_assoc, first.complete,
      second.complete]
  · intro cut isPrefix strict
    rcases cut_append isPrefix strict with
      ⟨inFirst, notFirst⟩ | ⟨rest, rfl, inSecond, notSecond⟩
    · simp only [Decoder.pair, first.truncated cut inFirst notFirst]
    · simp only [Decoder.pair, first.complete,
        second.truncated rest inSecond notSecond]

section Consumption

/-- Every decoded value takes up at least an amount of the input. -/
def Consumes
    (decoder : Decoder α β)
    (amount : ℕ) : Prop :=
  ∀ input value rest,
    decoder input = some (value, rest) →
    rest.length + amount ≤ input.length

/-- An input that is too short is not decoded. -/
theorem Consumes.eq_none_of_short
    {decoder : Decoder α β}
    {amount : ℕ}
    {input : List α}
    (consumes : Consumes decoder amount)
    (short : input.length < amount) :
    decoder input = none := by
  cases decoded : decoder input with
  | none =>
      rfl
  | some read =>
      have consumed := consumes input read.1 read.2 decoded
      omega

/-- One value after another takes up both amounts. -/
theorem Consumes.pair
    {firstDecoder : Decoder α β}
    {secondDecoder : Decoder α γ}
    {firstAmount secondAmount : ℕ}
    (first : Consumes firstDecoder firstAmount)
    (second : Consumes secondDecoder secondAmount) :
    Consumes (firstDecoder.pair secondDecoder)
      (firstAmount + secondAmount) := by
  intro input value rest decoded
  unfold Decoder.pair at decoded
  split at decoded
  · cases decoded
  · rename_i firstValue middle firstDecoded
    split at decoded
    · cases decoded
    · rename_i secondValue last secondDecoded
      cases decoded
      have firstConsumed := first _ _ _ firstDecoded
      have secondConsumed := second _ _ _ secondDecoded
      omega

end Consumption

section Soundness

/-- What is decoded is encoded at the front of the input. -/
def Sound
    (decoder : Decoder α β)
    (encode : β → List α) : Prop :=
  ∀ input value rest,
    decoder input = some (value, rest) →
    input = encode value ++ rest

/-- One value after another is encoded by both code words. -/
theorem Sound.pair
    {firstDecoder : Decoder α β}
    {secondDecoder : Decoder α γ}
    {firstEncode : β → List α}
    {secondEncode : γ → List α}
    (first : Sound firstDecoder firstEncode)
    (second : Sound secondDecoder secondEncode) :
    Sound (firstDecoder.pair secondDecoder)
      fun values => firstEncode values.1 ++ secondEncode values.2 := by
  intro input value rest decoded
  unfold Decoder.pair at decoded
  split at decoded
  · cases decoded
  · rename_i firstValue middle firstDecoded
    split at decoded
    · cases decoded
    · rename_i secondValue last secondDecoded
      cases decoded
      have firstPart := first _ _ _ firstDecoded
      have secondPart := second _ _ _ secondDecoded
      rw [firstPart, secondPart, List.append_assoc]

end Soundness

section Counted

/-- The bytes of a number, least significant byte first. -/
def littleEndian (width number : ℕ) : List UInt8 :=
  (BigEndian.encode width number).reverse

/-- The number of a byte string, least significant byte first. -/
def littleEndianValue (bytes : List UInt8) : ℕ :=
  BigEndian.value bytes.reverse

@[simp] theorem length_littleEndian
    (width number : ℕ) :
    (littleEndian width number).length = width := by
  rw [littleEndian, List.length_reverse, BigEndian.length_encode]

/-- Writing keeps the number modulo the power of the width. -/
theorem littleEndianValue_littleEndian
    (width number : ℕ) :
    littleEndianValue (littleEndian width number) =
      number % 256 ^ width := by
  rw [littleEndianValue, littleEndian, List.reverse_reverse,
    BigEndian.value_encode]

/-- A byte string denotes a number below the power of its length. -/
theorem littleEndianValue_lt
    (bytes : List UInt8) :
    littleEndianValue bytes < 256 ^ bytes.length := by
  have bound := BigEndian.value_lt bytes.reverse
  rw [List.length_reverse] at bound
  exact bound

/-- Every byte string is the encoding of its number. -/
theorem littleEndian_littleEndianValue
    (bytes : List UInt8) :
    littleEndian bytes.length (littleEndianValue bytes) = bytes := by
  rw [littleEndian, littleEndianValue, ← List.length_reverse,
    BigEndian.encode_value, List.reverse_reverse]

/-- Reads a length of the given width and then that many bytes. -/
def counted (width : ℕ) : Decoder UInt8 (List UInt8) :=
  fun input =>
    let count := littleEndianValue (input.take width)
    let rest := input.drop width
    if input.length < width ∨ rest.length < count then
      none
    else
      some (rest.take count, rest.drop count)

/-- A counted byte string takes up at least its length field. -/
theorem counted_consumes
    (width : ℕ) :
    Consumes (counted width) width := by
  intro input value rest decoded
  simp only [counted] at decoded
  split at decoded
  · cases decoded
  · rename_i long
    cases decoded
    simp only [List.length_drop]
    omega

/-- A byte string behind its length. -/
def frame (width : ℕ) (payload : List UInt8) : List UInt8 :=
  littleEndian width payload.length ++ payload

/-- A counted byte string that is read stands behind its length. -/
theorem counted_sound
    (width : ℕ) :
    Sound (counted width) (frame width) := by
  intro input value rest decoded
  simp only [counted] at decoded
  split at decoded
  · cases decoded
  · rename_i long
    cases decoded
    have header : (input.take width).length = width := by
      rw [List.length_take]
      omega
    have count :
        ((input.drop width).take
            (littleEndianValue (input.take width))).length =
          littleEndianValue (input.take width) := by
      rw [List.length_take]
      omega
    have lengthField := littleEndian_littleEndianValue (input.take width)
    rw [header] at lengthField
    rw [frame, count, lengthField, List.append_assoc, List.take_append_drop,
      List.take_append_drop]

/-- A byte string whose length fits delimits itself behind its length. -/
theorem frame_delimits
    {width : ℕ}
    {payload : List UInt8}
    (fits : payload.length < 256 ^ width) :
    Delimits (counted width) (frame width payload) payload := by
  have header := length_littleEndian width payload.length
  have count :
      littleEndianValue (littleEndian width payload.length) =
        payload.length := by
    rw [littleEndianValue_littleEndian, Nat.mod_eq_of_lt fits]
  constructor
  · intro rest
    have long :
        ¬ ((littleEndian width payload.length ++
              (payload ++ rest)).length < width ∨
            (payload ++ rest).length < payload.length) := by
      simp only [List.length_append, header]
      omega
    simp only [counted, frame, List.append_assoc,
      List.take_left' header, List.drop_left' header, count, if_neg long,
      List.take_left, List.drop_left]
  · intro cut isPrefix strict
    rcases cut_append isPrefix strict with
      ⟨inHeader, notHeader⟩ | ⟨rest, rfl, inPayload, notPayload⟩
    · have short : cut.length < width := by
        rw [← header]
        exact
          Nat.lt_of_le_of_ne inHeader.length_le fun same =>
            notHeader (inHeader.eq_of_length same)
      simp only [counted, short, true_or, ↓reduceIte]
    · have short : rest.length < payload.length :=
        Nat.lt_of_le_of_ne inPayload.length_le fun same =>
          notPayload (inPayload.eq_of_length same)
      simp only [counted, List.take_left' header, List.drop_left' header,
        count, short, or_true, ↓reduceIte]

end Counted

end Framing
