import StarkCash.Imperative
import StarkCash.Utf8Text
import StarkCash.Words

namespace StarkCash.Rust

/-!
# Hex strings in Rust

Embedding of `bytes_to_hex` and `hex_to_bytes` of
`src/module/cryptography/utils.rs`.  A `str` is its list of characters, with
offsets in bytes.  The length is tested and the text is cut by bytes, and each
piece goes to the integer parser of the standard library, which takes a plus
sign.  Hence the exact set of texts on which `hex_to_bytes` accepts hex and
refuses everything else.
-/

section StandardLibrary

/-- What the integer parser refuses (`IntErrorKind`). -/
inductive ParseIntError where
  | empty
  | invalidDigit
  | posOverflow
  deriving DecidableEq

/-- The text of an error of the integer parser. -/
def ParseIntError.message : ParseIntError → String
  | .empty => "cannot parse integer from empty string"
  | .invalidDigit => "invalid digit found in string"
  | .posOverflow => "number too large to fit in target type"

/-- `char::to_digit`. -/
def toDigit (char : Char) (radix : ℕ) : Option ℕ :=
  let digit :=
    if '0' ≤ char ∧ char ≤ '9' then
      some (char.toNat - 48)
    else if 'a' ≤ char ∧ char ≤ 'z' then
      some (char.toNat - 87)
    else if 'A' ≤ char ∧ char ≤ 'Z' then
      some (char.toNat - 55)
    else
      none
  digit.filter (· < radix)

/-- One digit of the integer parser, with its overflow checks. -/
def parseDigit
    (radix result : ℕ)
    (char : Char) : Except ParseIntError ℕ :=
  match toDigit char radix with
  | none => .error .invalidDigit
  | some digit =>
      if 256 ≤ result * radix then
        .error .posOverflow
      else if 256 ≤ result * radix + digit then
        .error .posOverflow
      else
        .ok (result * radix + digit)

/-- `u8::from_str_radix`: digits behind at most one plus sign. -/
def u8FromStrRadix
    (src : List Char)
    (radix : ℕ) : Except ParseIntError UInt8 :=
  match src with
  | [] => .error .empty
  | ['+'] => .error .invalidDigit
  | ['-'] => .error .invalidDigit
  | '+' :: digits => UInt8.ofNat <$> digits.foldlM (parseDigit radix) 0
  | digits => UInt8.ofNat <$> digits.foldlM (parseDigit radix) 0

/-- `&text[start..stop]`. -/
def strSlice
    (text : List Char)
    (start stop : ℕ) : Except Panic (List Char) :=
  match Utf8Text.slice text start stop with
  | some piece => .ok piece
  | none => .error ⟨"byte index is not a char boundary"⟩

/-- `str::strip_prefix`. -/
def stripPrefix (pre text : List Char) : Option (List Char) :=
  if pre.isPrefixOf text then
    some (text.drop pre.length)
  else
    none

/-- `(0..len).step_by(step)`. -/
def stepBy (len step : ℕ) : List ℕ :=
  List.range' 0 ((len + step - 1) / step) step

end StandardLibrary

section Definitions

/-- A computation that may panic or return an error text. -/
abbrev FallibleText (Result : Type) : Type :=
  ExceptT String (Except Panic) Result

/-- The text behind at most one leading `0x`. -/
def withoutPrefix (hex : List Char) : List Char :=
  (stripPrefix ['0', 'x'] hex).getD hex

/-- The closure of `hex_to_bytes`: parse the two bytes from an offset. -/
def hexPiece
    (hex : List Char)
    (i : ℕ) : FallibleText UInt8 := do
  let piece ← strSlice hex i (i + 2)
  match u8FromStrRadix piece 16 with
  | .ok byte => return byte
  | .error e => throw s!"Invalid hex: {e.message}"

/-- Convert a hex string to bytes (`hex_to_bytes`). -/
def hexToBytes (hex : String) : FallibleText (List UInt8) := do
  let hex := withoutPrefix hex.toList
  if Utf8Text.byteLength hex % 2 ≠ 0 then
    throw "Hex string must have even length"
  else
    (stepBy (Utf8Text.byteLength hex) 2).mapM (hexPiece hex)

/-- `format!("{:02x}", b)`. -/
def formatByte (b : UInt8) : List Char :=
  [Nat.digitChar (b.toNat / 16), Nat.digitChar (b.toNat % 16)]

/-- Convert bytes to a hex string (`bytes_to_hex`). -/
def bytesToHex (bytes : List UInt8) : String :=
  String.ofList (bytes.flatMap formatByte)

end Definitions

section Digits

/-- The characters of hex texts. -/
def hexCharacters : List Char :=
  ['0', '1', '2', '3', '4', '5', '6', '7', '8', '9', 'a', 'b', 'c', 'd',
    'e', 'f', 'A', 'B', 'C', 'D', 'E', 'F']

/-- The value of a hex digit. -/
def digitValue (char : Char) : ℕ :=
  (toDigit char 16).getD 0

/-- What is decided for one hex digit after the other holds for all. -/
theorem forall_hexCharacters
    {holds : Char → Prop}
    [DecidablePred holds]
    (all : hexCharacters.all fun char => holds char) :
    ∀ char ∈ hexCharacters, holds char := by
  intro char member
  exact of_decide_eq_true (List.all_eq_true.mp all char member)

/-- A hex digit is read as its value. -/
theorem toDigit_of_mem :
    ∀ char ∈ hexCharacters,
      toDigit char 16 = some (digitValue char) :=
  forall_hexCharacters (by decide)

/-- The value of a hex digit is below sixteen. -/
theorem digitValue_lt :
    ∀ char ∈ hexCharacters,
      digitValue char < 16 :=
  forall_hexCharacters (by decide)

/-- A hex digit takes one byte. -/
theorem utf8Size_of_mem :
    ∀ char ∈ hexCharacters,
      char.utf8Size = 1 :=
  forall_hexCharacters (by decide)

/-- The digit of the value is the lower-case character. -/
theorem digitChar_digitValue :
    ∀ char ∈ hexCharacters,
      Nat.digitChar (digitValue char) = char.toLower :=
  forall_hexCharacters (by decide)

/-- Among the ASCII characters only hex digits are read. -/
theorem mem_of_toDigit_ascii :
    ∀ code < 128,
      (toDigit (Char.ofNat code) 16).isSome = true →
      Char.ofNat code ∈ hexCharacters := by
  decide

/-- A character that is read as a digit is an ASCII character. -/
theorem toNat_lt_of_toDigit
    {char : Char}
    {digit : ℕ}
    (read : toDigit char 16 = some digit) :
    char.toNat < 128 := by
  have ordered :
      ∀ last : Char, char ≤ last → char.toNat ≤ last.toNat := by
    intro last below
    exact UInt32.le_iff_toNat_le.mp (Char.le_def.mp below)
  have nine : '9'.toNat < 128 := by decide
  have lower : 'z'.toNat < 128 := by decide
  have upper : 'Z'.toNat < 128 := by decide
  by_contra notAscii
  have none : toDigit char 16 = none := by
    unfold toDigit
    rw [if_neg, if_neg, if_neg]
    · rfl
    · intro range
      exact notAscii ((ordered _ range.2).trans_lt upper)
    · intro range
      exact notAscii ((ordered _ range.2).trans_lt lower)
    · intro range
      exact notAscii ((ordered _ range.2).trans_lt nine)
  rw [none] at read
  cases read

/-- What is read as a digit is a hex digit. -/
theorem mem_of_toDigit
    {char : Char}
    {digit : ℕ}
    (read : toDigit char 16 = some digit) :
    char ∈ hexCharacters := by
  have ascii := toNat_lt_of_toDigit read
  have self : Char.ofNat char.toNat = char := Char.ofNat_toNat char
  have isSome : (toDigit (Char.ofNat char.toNat) 16).isSome = true := by
    rw [self, read]
    rfl
  rw [← self]
  exact mem_of_toDigit_ascii _ ascii isSome

/-- A hex digit continues a small result. -/
theorem parseDigit_of_mem
    {result : ℕ}
    {char : Char}
    (small : result < 16)
    (isHex : char ∈ hexCharacters) :
    parseDigit 16 result char = .ok (result * 16 + digitValue char) := by
  have value := digitValue_lt char isHex
  unfold parseDigit
  rw [toDigit_of_mem char isHex]
  simp only
  rw [if_neg (by omega), if_neg (by omega)]

/-- Anything else is refused. -/
theorem parseDigit_of_not_mem
    {result : ℕ}
    {char : Char}
    (notHex : char ∉ hexCharacters) :
    parseDigit 16 result char = .error .invalidDigit := by
  unfold parseDigit
  cases read : toDigit char 16 with
  | none =>
      rfl
  | some digit =>
      exact absurd (mem_of_toDigit read) notHex

end Digits

section Pieces

/-- Two characters that the parser takes: a plus sign may lead. -/
def ReadPair (pair : Char × Char) : Prop :=
  (pair.1 = '+' ∨ pair.1 ∈ hexCharacters) ∧ pair.2 ∈ hexCharacters

/-- The byte that the parser takes them for. -/
def pairByte (pair : Char × Char) : UInt8 :=
  if pair.1 = '+' then
    UInt8.ofNat (digitValue pair.2)
  else
    UInt8.ofNat (digitValue pair.1 * 16 + digitValue pair.2)

/-- The characters of pairs in a row. -/
def flatten (pairs : List (Char × Char)) : List Char :=
  pairs.flatMap fun pair => [pair.1, pair.2]

/-- Two whole bytes of a text that the parser refuses. -/
def RefusedPiece (piece : List Char) : Prop :=
  (∃ char, piece = [char] ∧ char.utf8Size = 2) ∨
    ∃ pair : Char × Char,
      piece = [pair.1, pair.2] ∧
        pair.1.utf8Size = 1 ∧
        pair.2.utf8Size = 1 ∧
        ¬ ReadPair pair

/-- Without a plus sign in front two characters are parsed as two digits. -/
theorem u8FromStrRadix_pair
    {first second : Char}
    (noPlus : first ≠ '+') :
    u8FromStrRadix [first, second] 16 =
      UInt8.ofNat <$> [first, second].foldlM (parseDigit 16) 0 := by
  unfold u8FromStrRadix
  split
  · next same => cases same
  · next same => cases same
  · next same => cases same
  · next same =>
      cases same
      exact absurd rfl noPlus
  · rfl

/-- The parser takes the pairs that are read. -/
theorem u8FromStrRadix_of_readPair
    {pair : Char × Char}
    (readPair : ReadPair pair) :
    u8FromStrRadix [pair.1, pair.2] 16 = .ok (pairByte pair) := by
  obtain ⟨first, second⟩ := pair
  obtain ⟨firstShape, secondHex⟩ := readPair
  by_cases plus : first = '+'
  · subst plus
    have digit := parseDigit_of_mem (show 0 < 16 by decide) secondHex
    rw [Nat.zero_mul, Nat.zero_add] at digit
    change UInt8.ofNat <$> [second].foldlM (parseDigit 16) 0 = _
    rw [List.foldlM_cons, digit]
    rfl
  · have firstHex := firstShape.resolve_left plus
    have high := parseDigit_of_mem (show 0 < 16 by decide) firstHex
    rw [Nat.zero_mul, Nat.zero_add] at high
    have low :=
      parseDigit_of_mem (digitValue_lt first firstHex) secondHex
    rw [u8FromStrRadix_pair plus, List.foldlM_cons, high,
      Imperative.ok_bind, List.foldlM_cons, low, pairByte, if_neg plus]
    rfl

/-- The parser refuses the other pairs. -/
theorem u8FromStrRadix_of_not_readPair
    {pair : Char × Char}
    (notRead : ¬ ReadPair pair) :
    ∃ error, u8FromStrRadix [pair.1, pair.2] 16 = .error error := by
  obtain ⟨first, second⟩ := pair
  by_cases plus : first = '+'
  · subst plus
    have notHex : second ∉ hexCharacters := by
      intro isHex
      exact notRead ⟨Or.inl rfl, isHex⟩
    refine ⟨.invalidDigit, ?_⟩
    change UInt8.ofNat <$> [second].foldlM (parseDigit 16) 0 = _
    rw [List.foldlM_cons, parseDigit_of_not_mem notHex]
    rfl
  · refine ⟨.invalidDigit, ?_⟩
    rw [u8FromStrRadix_pair plus, List.foldlM_cons]
    by_cases firstHex : first ∈ hexCharacters
    · have notHex : second ∉ hexCharacters := by
        intro isHex
        exact notRead ⟨Or.inr firstHex, isHex⟩
      have high := parseDigit_of_mem (show 0 < 16 by decide) firstHex
      rw [high, Imperative.ok_bind, List.foldlM_cons,
        parseDigit_of_not_mem notHex]
      rfl
    · rw [parseDigit_of_not_mem firstHex]
      rfl

/-- The parser refuses a single character of two bytes. -/
theorem u8FromStrRadix_single
    {char : Char}
    (wide : char.utf8Size = 2) :
    ∃ error, u8FromStrRadix [char] 16 = .error error := by
  have notHex : char ∉ hexCharacters := by
    intro isHex
    have narrow := utf8Size_of_mem char isHex
    omega
  unfold u8FromStrRadix
  split
  · next same => cases same
  · exact ⟨_, rfl⟩
  · exact ⟨_, rfl⟩
  · next same =>
      cases same
      exact absurd wide (by decide)
  · refine ⟨.invalidDigit, ?_⟩
    rw [List.foldlM_cons, parseDigit_of_not_mem notHex]
    rfl

/-- Characters that are read take one byte each. -/
theorem ReadPair.sizes
    {pair : Char × Char}
    (readPair : ReadPair pair) :
    pair.1.utf8Size = 1 ∧ pair.2.utf8Size = 1 := by
  refine ⟨?_, utf8Size_of_mem _ readPair.2⟩
  rcases readPair.1 with plus | isHex
  · rw [plus]
    decide
  · exact utf8Size_of_mem _ isHex

/-- A piece of two bytes is one character or two. -/
theorem piece_cases
    {piece : List Char}
    (twoBytes : Utf8Text.byteLength piece = 2) :
    (∃ char, piece = [char] ∧ char.utf8Size = 2) ∨
      ∃ pair : Char × Char,
        piece = [pair.1, pair.2] ∧
          pair.1.utf8Size = 1 ∧
          pair.2.utf8Size = 1 := by
  cases piece with
  | nil =>
      cases twoBytes
  | cons first others =>
      have firstSize := first.utf8Size_pos
      rw [Utf8Text.byteLength_cons] at twoBytes
      cases others with
      | nil =>
          left
          exact ⟨first, rfl, twoBytes⟩
      | cons second rest =>
          have secondSize := second.utf8Size_pos
          rw [Utf8Text.byteLength_cons] at twoBytes
          have noRest : rest = [] :=
            Utf8Text.eq_nil_of_byteLength_eq_zero (by omega)
          subst noRest
          right
          refine ⟨(first, second), rfl, ?_, ?_⟩
          · change first.utf8Size = 1
            omega
          · change second.utf8Size = 1
            omega

/-- A refused piece takes two bytes. -/
theorem RefusedPiece.byteLength
    {piece : List Char}
    (refused : RefusedPiece piece) :
    Utf8Text.byteLength piece = 2 := by
  rcases refused with ⟨char, rfl, wide⟩ | ⟨pair, rfl, first, second, _⟩
  · rw [Utf8Text.byteLength_cons, wide, Utf8Text.byteLength_nil]
  · rw [Utf8Text.byteLength_cons, Utf8Text.byteLength_cons, first, second,
      Utf8Text.byteLength_nil]

/-- A piece of two bytes that is not refused is a pair that is read. -/
theorem exists_readPair
    {piece : List Char}
    (twoBytes : Utf8Text.byteLength piece = 2)
    (notRefused : ¬ RefusedPiece piece) :
    ∃ pair : Char × Char,
      piece = [pair.1, pair.2] ∧ ReadPair pair := by
  rcases piece_cases twoBytes with
    ⟨char, rfl, wide⟩ | ⟨pair, rfl, firstSize, secondSize⟩
  · exact absurd (Or.inl ⟨char, rfl, wide⟩) notRefused
  · refine ⟨pair, rfl, ?_⟩
    by_contra notRead
    exact
      notRefused
        (Or.inr ⟨pair, rfl, firstSize, secondSize, notRead⟩)

/-- The parser refuses a refused piece. -/
theorem RefusedPiece.parse
    {piece : List Char}
    (refused : RefusedPiece piece) :
    ∃ error, u8FromStrRadix piece 16 = .error error := by
  rcases refused with ⟨char, rfl, wide⟩ | ⟨pair, rfl, _, _, notRead⟩
  · exact u8FromStrRadix_single wide
  · exact u8FromStrRadix_of_not_readPair notRead

end Pieces

section Loop

/-- The piece behind a part of the text that takes two whole bytes. -/
theorem strSlice_append
    {before piece behind : List Char}
    (twoBytes : Utf8Text.byteLength piece = 2) :
    strSlice (before ++ (piece ++ behind)) (Utf8Text.byteLength before)
        (Utf8Text.byteLength before + 2) =
      .ok piece := by
  have cut := Utf8Text.splitAt_append piece behind
  rw [twoBytes] at cut
  rw [strSlice, Utf8Text.slice_append, cut]

/-- A pair that is read becomes its byte. -/
theorem hexPiece_of_readPair
    {pair : Char × Char}
    (readPair : ReadPair pair)
    (before behind : List Char) :
    hexPiece (before ++ ([pair.1, pair.2] ++ behind))
        (Utf8Text.byteLength before) =
      .ok (.ok (pairByte pair)) := by
  have twoBytes : Utf8Text.byteLength [pair.1, pair.2] = 2 := by
    rw [Utf8Text.byteLength_cons, Utf8Text.byteLength_cons,
      readPair.sizes.1, readPair.sizes.2, Utf8Text.byteLength_nil]
  unfold hexPiece
  rw [Imperative.lift_bind (strSlice_append twoBytes),
    u8FromStrRadix_of_readPair readPair]
  rfl

/-- A refused piece is an error. -/
theorem hexPiece_of_refused
    {piece : List Char}
    (refused : RefusedPiece piece)
    (before behind : List Char) :
    ∃ message,
      hexPiece (before ++ (piece ++ behind)) (Utf8Text.byteLength before) =
        .ok (.error message) := by
  obtain ⟨error, parsed⟩ := refused.parse
  unfold hexPiece
  rw [Imperative.lift_bind (strSlice_append refused.byteLength), parsed]
  exact ⟨_, rfl⟩

/-- A piece that ends inside of a character panics. -/
theorem hexPiece_of_cut
    {behind : List Char}
    (cut : Utf8Text.splitAt 2 behind = none)
    (before : List Char) :
    ∃ panic,
      hexPiece (before ++ behind) (Utf8Text.byteLength before) =
        .error panic := by
  have panics :
      strSlice (before ++ behind) (Utf8Text.byteLength before)
          (Utf8Text.byteLength before + 2) =
        .error ⟨"byte index is not a char boundary"⟩ := by
    rw [strSlice, Utf8Text.slice_append, cut]
  unfold hexPiece
  rw [panics]
  exact ⟨_, rfl⟩

/-- Pairs that are read become bytes, one after another. -/
theorem mapM_hexPiece_pairs
    {pairs : List (Char × Char)}
    (allRead : ∀ pair ∈ pairs, ReadPair pair)
    (before behind : List Char)
    (count : ℕ) :
    (List.range' (Utf8Text.byteLength before) (pairs.length + count) 2).mapM
        (hexPiece (before ++ (flatten pairs ++ behind))) =
      ((List.range' (Utf8Text.byteLength (before ++ flatten pairs)) count
          2).mapM (hexPiece ((before ++ flatten pairs) ++ behind)) >>=
        fun bytes => pure (pairs.map pairByte ++ bytes)) := by
  induction pairs generalizing before with
  | nil =>
      simp [flatten]
  | cons pair pairs inductionHypothesis =>
      obtain ⟨readPair, othersRead⟩ := List.forall_mem_cons.mp allRead
      have sizes :
          Utf8Text.byteLength before + 2 =
            Utf8Text.byteLength (before ++ [pair.1, pair.2]) := by
        rw [Utf8Text.byteLength_append, Utf8Text.byteLength_cons,
          Utf8Text.byteLength_cons, readPair.sizes.1, readPair.sizes.2,
          Utf8Text.byteLength_nil]
      have flattened :
          flatten (pair :: pairs) = [pair.1, pair.2] ++ flatten pairs :=
        List.flatMap_cons
      have rest := inductionHypothesis othersRead (before ++ [pair.1, pair.2])
      have numbered :
          (pair :: pairs).length + count = pairs.length + count + 1 := by
        rw [List.length_cons]
        omega
      rw [numbered, List.range'_succ, List.mapM_cons, flattened,
        List.append_assoc,
        Imperative.returned_bind (hexPiece_of_readPair readPair _ _), sizes,
        ← List.append_assoc before, rest, bind_assoc,
        ← List.append_assoc before]
      simp only [pure_bind, List.map_cons, List.cons_append]

/-- The loop over pairs that are read returns their bytes. -/
theorem mapM_hexPiece_of_allRead
    {pairs : List (Char × Char)}
    (allRead : ∀ pair ∈ pairs, ReadPair pair) :
    (List.range' 0 pairs.length 2).mapM (hexPiece (flatten pairs)) =
      .ok (.ok (pairs.map pairByte)) := by
  have looped := mapM_hexPiece_pairs allRead [] [] 0
  rw [List.append_nil, List.nil_append, Nat.add_zero] at looped
  refine looped.trans ?_
  rw [List.range'_zero, List.mapM_nil, pure_bind, List.append_nil]
  rfl

/-- The loop returns the error of a refused piece behind such pairs. -/
theorem mapM_hexPiece_of_refused
    {pairs : List (Char × Char)}
    {piece : List Char}
    (allRead : ∀ pair ∈ pairs, ReadPair pair)
    (refused : RefusedPiece piece)
    (behind : List Char)
    (count : ℕ) :
    ∃ message,
      (List.range' 0 (pairs.length + (count + 1)) 2).mapM
          (hexPiece (flatten pairs ++ (piece ++ behind))) =
        .ok (.error message) := by
  obtain ⟨message, failed⟩ :=
    hexPiece_of_refused refused (flatten pairs) behind
  have looped :=
    mapM_hexPiece_pairs allRead [] (piece ++ behind) (count + 1)
  rw [List.nil_append, List.nil_append] at looped
  refine ⟨message, looped.trans ?_⟩
  rw [List.range'_succ, List.mapM_cons, bind_assoc,
    Imperative.refused_bind failed]

/-- The loop panics at a piece that ends inside of a character. -/
theorem mapM_hexPiece_of_cut
    {pairs : List (Char × Char)}
    {behind : List Char}
    (allRead : ∀ pair ∈ pairs, ReadPair pair)
    (cut : Utf8Text.splitAt 2 behind = none)
    (count : ℕ) :
    ∃ panic,
      (List.range' 0 (pairs.length + (count + 1)) 2).mapM
          (hexPiece (flatten pairs ++ behind)) =
        .error panic := by
  obtain ⟨panic, panics⟩ := hexPiece_of_cut cut (flatten pairs)
  have looped := mapM_hexPiece_pairs allRead [] behind (count + 1)
  rw [List.nil_append, List.nil_append] at looped
  refine ⟨panic, looped.trans ?_⟩
  rw [List.range'_succ, List.mapM_cons, bind_assoc,
    Imperative.failed_bind panics]

/-- Pairs that are read take two bytes each. -/
theorem byteLength_flatten
    {pairs : List (Char × Char)}
    (allRead : ∀ pair ∈ pairs, ReadPair pair) :
    Utf8Text.byteLength (flatten pairs) = 2 * pairs.length := by
  induction pairs with
  | nil =>
      rfl
  | cons pair pairs inductionHypothesis =>
      obtain ⟨readPair, othersRead⟩ := List.forall_mem_cons.mp allRead
      have flattened :
          flatten (pair :: pairs) = pair.1 :: pair.2 :: flatten pairs :=
        List.flatMap_cons
      rw [flattened, Utf8Text.byteLength_cons, Utf8Text.byteLength_cons,
        readPair.sizes.1, readPair.sizes.2, inductionHypothesis othersRead,
        List.length_cons]
      omega

/-- Where the reading of pairs stops. -/
inductive Stops : List Char → Prop where
  | atEnd :
      Stops []
  | atRefused
      {piece rest : List Char}
      (refused : RefusedPiece piece) :
      Stops (piece ++ rest)
  | insideCharacter
      {text : List Char}
      (nonempty : text ≠ [])
      (cut : Utf8Text.splitAt 2 text = none) :
      Stops text

/--
A text of an even number of bytes consists of pairs that are read and of what
stands where the reading stops.
-/
theorem text_cases
    {text : List Char}
    {count : ℕ}
    (even : Utf8Text.byteLength text = 2 * count) :
    ∃ (pairs : List (Char × Char)) (behind : List Char),
      (∀ pair ∈ pairs, ReadPair pair) ∧
        text = flatten pairs ++ behind ∧
        Stops behind := by
  induction count generalizing text with
  | zero =>
      have empty := Utf8Text.eq_nil_of_byteLength_eq_zero even
      exact ⟨[], [], List.forall_mem_nil _, empty, .atEnd⟩
  | succ count inductionHypothesis =>
      cases cut : Utf8Text.splitAt 2 text with
      | none =>
          have nonempty : text ≠ [] := by
            rintro rfl
            rw [Utf8Text.byteLength_nil] at even
            omega
          exact
            ⟨[], text, List.forall_mem_nil _, rfl,
              .insideCharacter nonempty cut⟩
      | some parts =>
          obtain ⟨piece, rest⟩ := parts
          obtain ⟨rfl, twoBytes⟩ := Utf8Text.splitAt_sound cut
          rw [Utf8Text.byteLength_append, twoBytes] at even
          have evenRest : Utf8Text.byteLength rest = 2 * count := by
            omega
          by_cases refused : RefusedPiece piece
          · exact
              ⟨[], piece ++ rest, List.forall_mem_nil _, rfl,
                .atRefused refused⟩
          · obtain ⟨pair, rfl, readPair⟩ :=
              exists_readPair twoBytes refused
            obtain ⟨pairs, behind, allRead, rfl, stops⟩ :=
              inductionHypothesis evenRest
            refine ⟨pair :: pairs, behind, ?_, rfl, stops⟩
            exact List.forall_mem_cons.mpr ⟨readPair, allRead⟩

end Loop

section Exactness

/-- An even number of hex digits. -/
def HexText (text : List Char) : Prop :=
  text.length % 2 = 0 ∧ ∀ char ∈ text, char ∈ hexCharacters

/-- The bytes that hex digits denote, two by two. -/
def denote : List Char → List UInt8
  | high :: low :: rest =>
      UInt8.ofNat (digitValue high * 16 + digitValue low) :: denote rest
  | _ => []

/-- What is asked of `hex_to_bytes` on one string. -/
structure ExactlyHex (hex : String) : Prop where
  accepted :
    HexText (withoutPrefix hex.toList) →
    hexToBytes hex = .ok (.ok (denote (withoutPrefix hex.toList))) ∧
      bytesToHex (denote (withoutPrefix hex.toList)) =
        String.ofList ((withoutPrefix hex.toList).map Char.toLower)
  refused :
    ¬ HexText (withoutPrefix hex.toList) →
    ∃ message, hexToBytes hex = .ok (.error message)

/-- The texts on which that is done, by their characters. -/
def ReadExactly (text : List Char) : Prop :=
  Utf8Text.byteLength text % 2 ≠ 0 ∨
    HexText text ∨
      ∃ (pairs : List (Char × Char)) (piece rest : List Char),
        (∀ pair ∈ pairs, ReadPair pair) ∧
          RefusedPiece piece ∧
          text = flatten pairs ++ (piece ++ rest)

/-- Hex texts are pairs of hex digits. -/
theorem HexText.exists_pairs :
    ∀ {text : List Char},
      HexText text →
      ∃ pairs : List (Char × Char),
        text = flatten pairs ∧
          ∀ pair ∈ pairs,
            pair.1 ∈ hexCharacters ∧ pair.2 ∈ hexCharacters
  | [], _ =>
      ⟨[], rfl, List.forall_mem_nil _⟩
  | [_], ⟨even, _⟩ =>
      absurd even Nat.one_ne_zero
  | high :: low :: rest, ⟨even, isHex⟩ => by
      obtain ⟨highHex, others⟩ := List.forall_mem_cons.mp isHex
      obtain ⟨lowHex, restHex⟩ := List.forall_mem_cons.mp others
      have evenRest : rest.length % 2 = 0 := by
        simp only [List.length_cons] at even
        omega
      obtain ⟨pairs, rfl, allHex⟩ :=
        HexText.exists_pairs ⟨evenRest, restHex⟩
      refine ⟨(high, low) :: pairs, rfl, ?_⟩
      exact List.forall_mem_cons.mpr ⟨⟨highHex, lowHex⟩, allHex⟩

/-- The parser takes a pair with a hex digit in front for their number. -/
theorem pairByte_of_hex
    {pair : Char × Char}
    (firstHex : pair.1 ∈ hexCharacters) :
    pairByte pair =
      UInt8.ofNat (digitValue pair.1 * 16 + digitValue pair.2) := by
  have noPlus : pair.1 ≠ '+' := by
    intro plus
    exact absurd (plus ▸ firstHex) (by decide)
  rw [pairByte, if_neg noPlus]

/-- A pair of hex digits denotes the byte that the parser takes it for. -/
theorem denote_flatten
    {pairs : List (Char × Char)}
    (allHex :
      ∀ pair ∈ pairs, pair.1 ∈ hexCharacters ∧ pair.2 ∈ hexCharacters) :
    denote (flatten pairs) = pairs.map pairByte := by
  induction pairs with
  | nil =>
      rfl
  | cons pair pairs inductionHypothesis =>
      obtain ⟨isHex, othersHex⟩ := List.forall_mem_cons.mp allHex
      rw [List.map_cons, ← inductionHypothesis othersHex,
        pairByte_of_hex isHex.1]
      rfl

/-- Formatting a byte of two hex digits gives them back in lower case. -/
theorem formatByte_pairByte
    {pair : Char × Char}
    (firstHex : pair.1 ∈ hexCharacters)
    (secondHex : pair.2 ∈ hexCharacters) :
    formatByte (pairByte pair) = [pair.1.toLower, pair.2.toLower] := by
  have high := digitValue_lt _ firstHex
  have low := digitValue_lt _ secondHex
  have number :
      (pairByte pair).toNat =
        digitValue pair.1 * 16 + digitValue pair.2 := by
    rw [pairByte_of_hex firstHex]
    exact Nat.mod_eq_of_lt (by omega)
  have upper :
      (digitValue pair.1 * 16 + digitValue pair.2) / 16 =
        digitValue pair.1 := by
    omega
  have lower :
      (digitValue pair.1 * 16 + digitValue pair.2) % 16 =
        digitValue pair.2 := by
    omega
  rw [formatByte, number, upper, lower, digitChar_digitValue _ firstHex,
    digitChar_digitValue _ secondHex]

/-- Pairs of hex digits are read. -/
theorem readPair_of_hex
    {pairs : List (Char × Char)}
    (allHex :
      ∀ pair ∈ pairs, pair.1 ∈ hexCharacters ∧ pair.2 ∈ hexCharacters) :
    ∀ pair ∈ pairs, ReadPair pair := by
  intro pair member
  obtain ⟨firstHex, secondHex⟩ := allHex pair member
  exact ⟨Or.inr firstHex, secondHex⟩

/-- Formatting what a hex text denotes gives it back in lower case. -/
theorem bytesToHex_denote
    {text : List Char}
    (isHex : HexText text) :
    bytesToHex (denote text) = String.ofList (text.map Char.toLower) := by
  obtain ⟨pairs, rfl, allHex⟩ := isHex.exists_pairs
  rw [denote_flatten allHex, bytesToHex]
  refine congrArg String.ofList ?_
  clear isHex
  induction pairs with
  | nil =>
      rfl
  | cons pair pairs inductionHypothesis =>
      obtain ⟨⟨firstHex, secondHex⟩, othersHex⟩ :=
        List.forall_mem_cons.mp allHex
      rw [List.map_cons, List.flatMap_cons,
        formatByte_pairByte firstHex secondHex,
        inductionHypothesis othersHex]
      rfl

/-- With an even number of bytes `hex_to_bytes` runs its loop. -/
theorem hexToBytes_of_even
    {hex : String}
    {count : ℕ}
    (even :
      Utf8Text.byteLength (withoutPrefix hex.toList) = 2 * count) :
    hexToBytes hex =
      (List.range' 0 count 2).mapM
        (hexPiece (withoutPrefix hex.toList)) := by
  have noOdd :
      ¬ Utf8Text.byteLength (withoutPrefix hex.toList) % 2 ≠ 0 := by
    omega
  have steps : (2 * count + 2 - 1) / 2 = count := by
    omega
  unfold hexToBytes
  rw [if_neg noOdd, stepBy, even, steps]

/-- With an odd number of bytes `hex_to_bytes` returns an error. -/
theorem hexToBytes_of_odd
    {hex : String}
    (odd :
      Utf8Text.byteLength (withoutPrefix hex.toList) % 2 ≠ 0) :
    hexToBytes hex =
      .ok (.error "Hex string must have even length") := by
  unfold hexToBytes
  rw [if_pos odd]
  rfl

/-- Pairs that are read are accepted. -/
theorem hexToBytes_of_allRead
    {hex : String}
    {pairs : List (Char × Char)}
    (allRead : ∀ pair ∈ pairs, ReadPair pair)
    (text : withoutPrefix hex.toList = flatten pairs) :
    hexToBytes hex = .ok (.ok (pairs.map pairByte)) := by
  have even :
      Utf8Text.byteLength (withoutPrefix hex.toList) =
        2 * pairs.length := by
    rw [text, byteLength_flatten allRead]
  rw [hexToBytes_of_even even, text, mapM_hexPiece_of_allRead allRead]

/-- Hex texts are accepted as the bytes they denote. -/
theorem hexToBytes_of_hexText
    {hex : String}
    (isHex : HexText (withoutPrefix hex.toList)) :
    hexToBytes hex = .ok (.ok (denote (withoutPrefix hex.toList))) := by
  obtain ⟨pairs, text, allHex⟩ := isHex.exists_pairs
  rw [hexToBytes_of_allRead (readPair_of_hex allHex) text, text,
    denote_flatten allHex]

/-- Behind pairs that are read the pieces are counted on. -/
theorem exists_count_behind
    {pairs : List (Char × Char)}
    {behind : List Char}
    {count : ℕ}
    (allRead : ∀ pair ∈ pairs, ReadPair pair)
    (nonempty : behind ≠ [])
    (even : Utf8Text.byteLength (flatten pairs ++ behind) = 2 * count) :
    ∃ more, count = pairs.length + (more + 1) := by
  rw [Utf8Text.byteLength_append, byteLength_flatten allRead] at even
  have positive : Utf8Text.byteLength behind ≠ 0 :=
    mt Utf8Text.eq_nil_of_byteLength_eq_zero nonempty
  exact ⟨count - pairs.length - 1, by omega⟩

/-- A refused piece behind pairs that are read is an error. -/
theorem hexToBytes_of_refused
    {hex : String}
    {pairs : List (Char × Char)}
    {piece rest : List Char}
    (allRead : ∀ pair ∈ pairs, ReadPair pair)
    (refused : RefusedPiece piece)
    (text :
      withoutPrefix hex.toList = flatten pairs ++ (piece ++ rest)) :
    ∃ message, hexToBytes hex = .ok (.error message) := by
  by_cases odd : Utf8Text.byteLength (withoutPrefix hex.toList) % 2 ≠ 0
  · exact ⟨_, hexToBytes_of_odd odd⟩
  · obtain ⟨count, even⟩ :=
      Nat.dvd_of_mod_eq_zero (not_ne_iff.mp odd)
    have nonempty : piece ++ rest ≠ [] := by
      intro empty
      have twoBytes := refused.byteLength
      rw [(List.append_eq_nil_iff.mp empty).1] at twoBytes
      cases twoBytes
    rw [hexToBytes_of_even even, text]
    rw [text] at even
    obtain ⟨more, rfl⟩ := exists_count_behind allRead nonempty even
    exact mapM_hexPiece_of_refused allRead refused rest more

/-- A piece that ends inside of a character panics. -/
theorem hexToBytes_of_cut
    {hex : String}
    {pairs : List (Char × Char)}
    {behind : List Char}
    {count : ℕ}
    (even :
      Utf8Text.byteLength (withoutPrefix hex.toList) = 2 * count)
    (allRead : ∀ pair ∈ pairs, ReadPair pair)
    (nonempty : behind ≠ [])
    (cut : Utf8Text.splitAt 2 behind = none)
    (text : withoutPrefix hex.toList = flatten pairs ++ behind) :
    ∃ panic, hexToBytes hex = .error panic := by
  rw [hexToBytes_of_even even, text]
  rw [text] at even
  obtain ⟨more, rfl⟩ := exists_count_behind allRead nonempty even
  exact mapM_hexPiece_of_cut allRead cut more

/-- Where hex is read exactly, the text is one of the named ones. -/
theorem ExactlyHex.readExactly
    {hex : String}
    (exactly : ExactlyHex hex) :
    ReadExactly (withoutPrefix hex.toList) := by
  by_cases odd : Utf8Text.byteLength (withoutPrefix hex.toList) % 2 ≠ 0
  · exact Or.inl odd
  · by_cases isHex : HexText (withoutPrefix hex.toList)
    · exact Or.inr (Or.inl isHex)
    · obtain ⟨message, failed⟩ := exactly.refused isHex
      obtain ⟨count, even⟩ :=
        Nat.dvd_of_mod_eq_zero (not_ne_iff.mp odd)
      obtain ⟨pairs, behind, allRead, text, stops⟩ := text_cases even
      cases stops with
      | atEnd =>
          rw [List.append_nil] at text
          rw [hexToBytes_of_allRead allRead text] at failed
          cases failed
      | atRefused refused =>
          exact Or.inr (Or.inr ⟨pairs, _, _, allRead, refused, text⟩)
      | insideCharacter nonempty cut =>
          obtain ⟨panic, panics⟩ :=
            hexToBytes_of_cut even allRead nonempty cut text
          rw [panics] at failed
          cases failed

/-- On the named texts `hex_to_bytes` reads exactly hex. -/
theorem ReadExactly.exactlyHex
    {hex : String}
    (reads : ReadExactly (withoutPrefix hex.toList)) :
    ExactlyHex hex := by
  constructor
  · intro isHex
    exact ⟨hexToBytes_of_hexText isHex, bytesToHex_denote isHex⟩
  · intro notHex
    rcases reads with odd | isHex | ⟨pairs, piece, rest, allRead, refused, text⟩
    · exact ⟨_, hexToBytes_of_odd odd⟩
    · exact absurd isHex notHex
    · exact hexToBytes_of_refused allRead refused text

/--
`hex_to_bytes` accepts the hex strings, as what they denote, and returns an
error for all others, exactly on the strings with an odd number of bytes, the
hex strings, and those whose first piece that the parser does not take is made
of whole characters.
-/
theorem exactlyHex_iff
    (hex : String) :
    ExactlyHex hex ↔ ReadExactly (withoutPrefix hex.toList) := by
  constructor
  · intro exactly
    exact exactly.readExactly
  · intro reads
    exact reads.exactlyHex

/-- A plus sign is accepted, and a character across two pieces panics. -/
theorem hexToBytes_not_exact :
    hexToBytes "+1" = .ok (.ok [1]) ∧
      ¬ ExactlyHex "+1" ∧
      (∃ panic, hexToBytes "aéa" = .error panic) ∧
      ¬ ExactlyHex "aéa" := by
  have plusText : withoutPrefix "+1".toList = flatten [('+', '1')] := by
    decide
  have plusRead : ∀ pair ∈ [('+', '1')], ReadPair pair := by
    intro pair member
    rw [List.mem_singleton.mp member]
    exact ⟨Or.inl rfl, by decide⟩
  have accepted : hexToBytes "+1" = .ok (.ok [1]) :=
    hexToBytes_of_allRead plusRead plusText
  have plusNotHex : ¬ HexText (withoutPrefix "+1".toList) := by
    rw [plusText]
    intro isHex
    exact absurd (isHex.2 '+' (by decide)) (by decide)
  have wideText : withoutPrefix "aéa".toList = ['a', 'é', 'a'] := by
    decide
  have wideEven :
      Utf8Text.byteLength (withoutPrefix "aéa".toList) = 2 * 2 := by
    rw [wideText]
    decide
  have panics : ∃ panic, hexToBytes "aéa" = .error panic :=
    hexToBytes_of_cut wideEven (List.forall_mem_nil ReadPair)
      (List.cons_ne_nil 'a' ['é', 'a']) (by decide) wideText
  have wideNotHex : ¬ HexText (withoutPrefix "aéa".toList) := by
    rw [wideText]
    intro isHex
    exact absurd (isHex.2 'é' (by decide)) (by decide)
  refine ⟨accepted, ?_, panics, ?_⟩
  · intro exactly
    obtain ⟨message, failed⟩ := exactly.refused plusNotHex
    rw [accepted] at failed
    cases failed
  · intro exactly
    obtain ⟨panic, panicked⟩ := panics
    obtain ⟨message, failed⟩ := exactly.refused wideNotHex
    rw [panicked] at failed
    cases failed

end Exactness

end StarkCash.Rust
