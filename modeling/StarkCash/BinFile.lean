import StarkCash.ByteMemory

namespace StarkCash.Rapidsnark

/-!
# Files of sections

`BinFile` reads a file of a type, a version and sections, each with a number
and a length before its bytes.  Positions are numbers of sixty-four bits, and
advancing one by a length can wrap around.
-/

namespace BinFileUtils

/-- A section of the file. -/
structure Section where
  start : ℕ
  size : ℕ
  deriving Repr, DecidableEq

/-- What reading a file stops with. -/
inductive Failure where
  | tooShort
  | invalidType (expected found : List UInt8)
  | invalidVersion (maxVersion version : ℕ)
  | tooShortForSections (nSections : ℕ)
  | invalidSection (index pos size : ℕ)
  | posTooBig (size newPos : ℕ)
  | noSection (sectionId : ℕ)
  | sectionPosTooBig (count sectionPos : ℕ)
  | alreadyReading
  | nullSection
  | invalidSectionSize
  deriving Repr, DecidableEq

/-- The bytes of a type as a text. -/
def typeText (bytes : List UInt8) : String :=
  String.ofList (bytes.map fun byte => Char.ofNat byte.toNat)

/--
The text of a failure, and none where the code reads the section through a null
pointer.
-/
def Failure.what : Failure → Option String
  | .tooShort => some "File is too short."
  | .invalidType expected found =>
      some <| "Invalid file type. It should be " ++ typeText expected ++
        " and it is " ++ typeText found
  | .invalidVersion maxVersion version =>
      some <| "Invalid version. It should be <=" ++ toString maxVersion ++
        " and it is " ++ toString version
  | .tooShortForSections nSections =>
      some <| "File is too short to contain " ++ toString nSections ++ " sections."
  | .invalidSection index pos size =>
      some <| "Section #" ++ toString index ++ " is invalid.. It ends at pos " ++
        toString pos ++ " but should end before " ++ toString size ++ "."
  | .posTooBig size newPos =>
      some <| "File pos is too big. There are " ++ toString size ++
        " bytes and it's trying to access byte " ++ toString newPos
  | .noSection sectionId =>
      some <| "Section does not exist: " ++ toString sectionId
  | .sectionPosTooBig count sectionPos =>
      some <| "Section pos too big. There are " ++ toString count ++
        " and it's trying to access section: " ++ toString sectionPos
  | .nullSection => none
  | .alreadyReading => some "Already reading a section"
  | .invalidSectionSize => some "Invalid section size"

/-- A file and how far it has been read (`BinFile`). -/
structure BinFile where
  addr : ℕ → UInt8
  size : ℕ
  pos : ℕ
  sections : ℕ → List Section
  readingSection : Option Section

/-- A position further on, as a number of sixty-four bits. -/
def advance (pos length : ℕ) : ℕ :=
  (pos + length) % 2 ^ 64

/-- Read bytes, and where they begin. -/
def BinFile.read
    (f : BinFile)
    (len : ℕ) : Except Failure (ℕ × BinFile) :=
  let newPos := advance f.pos len
  if newPos > f.size then
    .error (.posTooBig f.size newPos)
  else
    .ok (f.pos, { f with pos := newPos })

/-- Read a number of four bytes. -/
def BinFile.readU32LE (f : BinFile) : Except Failure (ℕ × BinFile) := do
  let (start, f) ← f.read 4
  return (ByteMemory.load f.addr start 4, f)

/-- Read a number of eight bytes. -/
def BinFile.readU64LE (f : BinFile) : Except Failure (ℕ × BinFile) := do
  let (start, f) ← f.read 8
  return (ByteMemory.load f.addr start 8, f)

/-- Record a section and pass over it. -/
def BinFile.recordSection
    (f : BinFile)
    (i sType sSize : ℕ) : Except Failure BinFile :=
  let sections :=
    Function.update f.sections sType
      (f.sections sType ++ [{ start := f.pos, size := sSize }])
  let pos := advance f.pos sSize
  if pos > f.size then
    .error (.invalidSection i pos f.size)
  else
    .ok { f with sections, pos }

/-- Read the sections from one on. -/
def BinFile.readSections : ℕ → ℕ → BinFile → Except Failure BinFile
  | 0, _, f => .ok f
  | remaining + 1, i, f => do
      let (sType, f) ← f.readU32LE
      let (sSize, f) ← f.readU64LE
      let f ← f.recordSection i sType sSize
      readSections remaining (i + 1) f

/-- The first four bytes. -/
def fileType (addr : ℕ → UInt8) : List UInt8 :=
  (List.range 4).map addr

/-- Read the sections of a file of a type (`readFileData`). -/
def readFileData
    (addr : ℕ → UInt8)
    (size : ℕ)
    (type : List UInt8)
    (maxVersion : ℕ) : Except Failure BinFile := do
  let headerSize := 12
  let minSectionSize := 12
  if size < headerSize then
    throw .tooShort
  let f : BinFile :=
    { addr, size, pos := 4, sections := fun _ => [], readingSection := none }
  if fileType addr ≠ type then
    throw (.invalidType type (fileType addr))
  let (version, f) ← f.readU32LE
  if version > maxVersion then
    throw (.invalidVersion maxVersion version)
  let (nSections, f) ← f.readU32LE
  if size < headerSize + nSections * minSectionSize then
    throw (.tooShortForSections nSections)
  let f ← f.readSections nSections 0
  return { f with pos := 0, readingSection := none }

/-- The section of a number and a position. -/
def BinFile.find
    (f : BinFile)
    (sectionId sectionPos : ℕ) : Except Failure Section :=
  if f.sections sectionId = [] then
    .error (.noSection sectionId)
  else
    match (f.sections sectionId)[sectionPos]? with
    | none =>
        .error
          (.sectionPosTooBig (f.sections sectionId).length sectionPos)
    | some entry => .ok entry

/-- Go to a section. -/
def BinFile.startReadSection
    (f : BinFile)
    (sectionId sectionPos : ℕ) : Except Failure BinFile := do
  let entry ← f.find sectionId sectionPos
  if f.readingSection ≠ none then
    throw .alreadyReading
  return { f with pos := entry.start, readingSection := some entry }

/-- Leave a section, checking that it has been read to its end. -/
def BinFile.endReadSection
    (f : BinFile)
    (check : Bool) : Except Failure BinFile :=
  if check then
    match f.readingSection with
    | none => .error .nullSection
    | some entry =>
        if (f.pos + 2 ^ 64 - entry.start) % 2 ^ 64 ≠ entry.size then
          .error .invalidSectionSize
        else
          .ok { f with readingSection := none }
  else
    .ok { f with readingSection := none }

/-- Where a section begins. -/
def BinFile.getSectionData
    (f : BinFile)
    (sectionId sectionPos : ℕ) : Except Failure ℕ := do
  let entry ← f.find sectionId sectionPos
  return entry.start

/-- How long a section is. -/
def BinFile.getSectionSize
    (f : BinFile)
    (sectionId sectionPos : ℕ) : Except Failure ℕ := do
  let entry ← f.find sectionId sectionPos
  return entry.size

section Bounds

variable
    {addr : ℕ → UInt8}
    {size : ℕ}
    {f g : BinFile}

/-- A sequence that returns has a first part that returns. -/
theorem exists_of_bind
    {Result Answer : Type}
    {first : Except Failure Result}
    {rest : Result → Except Failure Answer}
    {answer : Answer}
    (returned : first >>= rest = .ok answer) :
    ∃ result, first = .ok result ∧ rest result = .ok answer := by
  cases first with
  | error failure =>
      cases returned
  | ok result =>
      exact ⟨result, rfl, returned⟩

/-- A sequence that returns has passed the check it begins with. -/
theorem of_check
    {condition : Prop}
    [Decidable condition]
    {Answer : Type}
    {failure : Failure}
    {rest : PUnit → Except Failure Answer}
    {otherwise : Except Failure Answer}
    {answer : Answer}
    (returned :
      (if condition then throw failure >>= rest else otherwise) =
        .ok answer) :
    ¬ condition ∧ otherwise = .ok answer := by
  by_cases holds : condition
  · rw [if_pos holds] at returned
    cases returned
  · rw [if_neg holds] at returned
    exact ⟨holds, returned⟩

/-- What reading bytes returns and does. -/
theorem BinFile.read_returned
    {len start : ℕ}
    (returned : f.read len = .ok (start, g)) :
    start = f.pos ∧
      g = { f with pos := advance f.pos len } ∧ g.pos ≤ f.size := by
  unfold BinFile.read at returned
  simp only at returned
  split_ifs at returned with beyond
  obtain ⟨rfl, rfl⟩ := Prod.mk.inj (Except.ok.inj returned)
  exact ⟨rfl, rfl, not_lt.mp beyond⟩

/-- What reading a number of four bytes returns and does. -/
theorem BinFile.readU32LE_returned
    {number : ℕ}
    (returned : f.readU32LE = .ok (number, g)) :
    number < 2 ^ 32 ∧
      g = { f with pos := advance f.pos 4 } ∧ g.pos ≤ f.size := by
  obtain ⟨⟨start, h⟩, read, rest⟩ := exists_of_bind returned
  obtain ⟨rfl, rfl⟩ := Prod.mk.inj (Except.ok.inj rest)
  exact ⟨ByteMemory.load_lt _ _ 4, (read_returned read).2⟩

/-- What reading a number of eight bytes does. -/
theorem BinFile.readU64LE_returned
    {number : ℕ}
    (returned : f.readU64LE = .ok (number, g)) :
    g = { f with pos := advance f.pos 8 } ∧ g.pos ≤ f.size := by
  obtain ⟨⟨start, h⟩, read, rest⟩ := exists_of_bind returned
  obtain ⟨rfl, rfl⟩ := Prod.mk.inj (Except.ok.inj rest)
  exact (read_returned read).2

/-- The file is read inside its bytes, and so begin its sections. -/
structure BinFile.Bounded
    (addr : ℕ → UInt8)
    (size : ℕ)
    (f : BinFile) : Prop where
  addr_eq : f.addr = addr
  size_eq : f.size = size
  pos_le : f.pos ≤ size
  sections :
    ∀ sType,
      ∀ entry ∈ f.sections sType,
        entry.start ≤ size ∧ advance entry.start entry.size ≤ size

/-- A file stays bounded where it is read further inside its bytes. -/
theorem BinFile.Bounded.moved
    (bounded : f.Bounded addr size)
    {pos : ℕ}
    (moved : g = { f with pos })
    (inside : g.pos ≤ f.size) :
    g.Bounded addr size := by
  subst moved
  rw [bounded.size_eq] at inside
  exact ⟨bounded.addr_eq, bounded.size_eq, inside, bounded.sections⟩

/-- Recording a section stays inside the file. -/
theorem BinFile.Bounded.recordSection
    (bounded : f.Bounded addr size)
    {i sType sSize : ℕ}
    (returned : f.recordSection i sType sSize = .ok g) :
    g.Bounded addr size := by
  unfold BinFile.recordSection at returned
  simp only at returned
  split_ifs at returned with beyond
  obtain rfl := Except.ok.inj returned
  rw [bounded.size_eq] at beyond
  refine ⟨bounded.addr_eq, bounded.size_eq, not_lt.mp beyond, ?_⟩
  intro other entry member
  rcases eq_or_ne other sType with rfl | differs
  · simp only [Function.update_self, List.mem_append, List.mem_singleton] at member
    rcases member with before | rfl
    · exact bounded.sections _ _ before
    · exact ⟨bounded.pos_le, not_lt.mp beyond⟩
  · simp only [Function.update_of_ne differs] at member
    exact bounded.sections _ _ member

/-- Reading all sections stays inside the file. -/
theorem BinFile.Bounded.readSections
    (bounded : f.Bounded addr size)
    {remaining i : ℕ}
    (returned : f.readSections remaining i = .ok g) :
    g.Bounded addr size := by
  induction remaining generalizing i f with
  | zero =>
      obtain rfl := Except.ok.inj returned
      exact bounded
  | succ remaining inductionHypothesis =>
      obtain ⟨⟨sType, first⟩, readType, returned⟩ := exists_of_bind returned
      obtain ⟨⟨sSize, second⟩, readSize, returned⟩ := exists_of_bind returned
      obtain ⟨third, recorded, returned⟩ := exists_of_bind returned
      obtain ⟨-, moved, inside⟩ := BinFile.readU32LE_returned readType
      have afterType := bounded.moved moved inside
      obtain ⟨moved, inside⟩ := BinFile.readU64LE_returned readSize
      have afterSize := afterType.moved moved inside
      exact inductionHypothesis (afterSize.recordSection recorded) returned

/-- A file that is read is bounded. -/
theorem readFileData_bounded
    {type : List UInt8}
    {maxVersion : ℕ}
    (returned : readFileData addr size type maxVersion = .ok f) :
    f.Bounded addr size := by
  obtain ⟨long, returned⟩ := of_check returned
  have four_le : 4 ≤ size := by omega
  obtain ⟨-, returned⟩ := of_check returned
  obtain ⟨⟨version, first⟩, readVersion, returned⟩ := exists_of_bind returned
  obtain ⟨-, returned⟩ := of_check returned
  obtain ⟨⟨nSections, second⟩, readCount, returned⟩ := exists_of_bind returned
  obtain ⟨-, returned⟩ := of_check returned
  obtain ⟨third, readSections, returned⟩ := exists_of_bind returned
  obtain rfl := Except.ok.inj returned
  have started :
      BinFile.Bounded addr size
        { addr, size, pos := 4, sections := fun _ => []
          readingSection := none } :=
    ⟨rfl, rfl, four_le, fun _ _ member => by cases member⟩
  obtain ⟨-, moved, inside⟩ := BinFile.readU32LE_returned readVersion
  have afterVersion := started.moved moved inside
  obtain ⟨-, moved, inside⟩ := BinFile.readU32LE_returned readCount
  have afterCount := afterVersion.moved moved inside
  have afterSections := afterCount.readSections readSections
  exact
    ⟨afterSections.addr_eq, afterSections.size_eq, Nat.zero_le _,
      afterSections.sections⟩

/-- A section that is found is one of the file's. -/
theorem BinFile.mem_of_find
    {sectionId sectionPos : ℕ}
    {entry : Section}
    (found : f.find sectionId sectionPos = .ok entry) :
    entry ∈ f.sections sectionId := by
  unfold BinFile.find at found
  split_ifs at found
  split at found
  · cases found
  · rename_i stored
    obtain rfl := Except.ok.inj found
    exact List.mem_of_getElem? stored

/-- Sections of a bounded file end in it unless they wrap around. -/
theorem BinFile.Bounded.find_bounds
    (bounded : f.Bounded addr size)
    (fits : size < 2 ^ 64)
    {sectionId sectionPos : ℕ}
    {entry : Section}
    (found : f.find sectionId sectionPos = .ok entry) :
    entry.start ≤ size ∧
      (entry.start + entry.size ≤ size ↔
        entry.start + entry.size < 2 ^ 64) := by
  obtain ⟨start_le, end_le⟩ :=
    bounded.sections _ _ (BinFile.mem_of_find found)
  refine ⟨start_le, fun inside => inside.trans_lt fits, fun unwrapped => ?_⟩
  rw [advance, Nat.mod_eq_of_lt unwrapped] at end_le
  exact end_le

/--
Every section of a file that is read begins in the file, and ends in it
exactly if its length does not wrap the position around.
-/
theorem readFileData_sections
    (fits : size < 2 ^ 64)
    {type : List UInt8}
    {maxVersion : ℕ}
    (returned : readFileData addr size type maxVersion = .ok f)
    {sectionId sectionPos : ℕ}
    {entry : Section}
    (found : f.find sectionId sectionPos = .ok entry) :
    entry.start ≤ size ∧
      (entry.start + entry.size ≤ size ↔
        entry.start + entry.size < 2 ^ 64) :=
  (readFileData_bounded returned).find_bounds fits found

/--
So does the section whose beginning and length a caller asks for, and these
are those of one section.
-/
theorem getSection_bounds
    (fits : size < 2 ^ 64)
    {type : List UInt8}
    {maxVersion : ℕ}
    (returned : readFileData addr size type maxVersion = .ok f)
    {sectionId sectionPos start length : ℕ}
    (data : f.getSectionData sectionId sectionPos = .ok start)
    (long : f.getSectionSize sectionId sectionPos = .ok length) :
    f.find sectionId sectionPos = .ok { start, size := length } ∧
      start ≤ size ∧
      (start + length ≤ size ↔ start + length < 2 ^ 64) := by
  obtain ⟨entry, found, data⟩ := exists_of_bind data
  obtain ⟨other, otherFound, long⟩ := exists_of_bind long
  rw [found, Except.ok.injEq] at otherFound
  subst otherFound
  obtain rfl := Except.ok.inj data
  obtain rfl := Except.ok.inj long
  exact ⟨found, (readFileData_bounded returned).find_bounds fits found⟩

end Bounds

/-- The bytes of a list, and zeros after them. -/
def bytesAt (bytes : List UInt8) (address : ℕ) : UInt8 :=
  bytes.getD address 0

/-- The type of a witness. -/
def wtnsType : List UInt8 :=
  [119, 116, 110, 115]

/-- A witness with a section whose length wraps around. -/
def wrappedFile : List UInt8 :=
  wtnsType ++
    [2, 0, 0, 0, 1, 0, 0, 0, 1, 0, 0, 0,
      255, 255, 255, 255, 255, 255, 255, 255]

/-- The section wraps around, and so ends past the file that is accepted. -/
theorem readFileData_wrapped :
    ∃ f,
      readFileData (bytesAt wrappedFile) 24 wtnsType 2 = .ok f ∧
        f.find 1 0 = .ok { start := 24, size := 2 ^ 64 - 1 } ∧
          ¬ 24 + (2 ^ 64 - 1) ≤ 24 := by
  have wrapped :
      ∃ f,
        readFileData (bytesAt wrappedFile) 24 wtnsType 2 = .ok f ∧
          f.find 1 0 = .ok { start := 24, size := 2 ^ 64 - 1 } :=
    ⟨_, rfl, rfl⟩
  obtain ⟨f, accepted, found⟩ := wrapped
  refine ⟨f, accepted, found, fun inside => ?_⟩
  have unwrapped :=
    (readFileData_sections (by omega) accepted found).2.mp inside
  exact absurd unwrapped (by decide)

end BinFileUtils

namespace WtnsUtils

open BinFileUtils

/-- The header of a witness (`Header`). -/
structure Header where
  n8 : ℕ
  prime : ℕ
  nVars : ℕ
  deriving Repr, DecidableEq

/-- Read the header of a witness. -/
def loadHeader (f : BinFile) : Except Failure (Header × BinFile) := do
  let f ← f.startReadSection 1 0
  let (n8, f) ← f.readU32LE
  let (start, f) ← f.read n8
  let prime := ByteMemory.load f.addr start n8
  let (nVars, f) ← f.readU32LE
  let f ← f.endReadSection true
  return ({ n8, prime, nVars }, f)

/-- A file that is read further goes on by the length that is read. -/
theorem forward_of_moved
    {addr : ℕ → UInt8}
    {size length : ℕ}
    {f g : BinFile}
    (bounded : f.Bounded addr size)
    (fits : size < 2 ^ 63)
    (short : length < 2 ^ 63)
    (moved : g = { f with pos := advance f.pos length })
    (inside : g.pos ≤ f.size) :
    g.Bounded addr size ∧
      g.pos = f.pos + length ∧ g.readingSection = f.readingSection := by
  refine ⟨bounded.moved moved inside, ?_, ?_⟩
  · have pos_le := bounded.pos_le
    rw [moved]
    exact Nat.mod_eq_of_lt (by omega)
  · rw [moved]

/-- What going to a section does. -/
theorem startReadSection_returned
    {f g : BinFile}
    {sectionId sectionPos : ℕ}
    (returned : f.startReadSection sectionId sectionPos = .ok g) :
    ∃ entry,
      f.find sectionId sectionPos = .ok entry ∧
        g = { f with pos := entry.start, readingSection := some entry } := by
  obtain ⟨entry, found, returned⟩ := exists_of_bind returned
  obtain ⟨-, returned⟩ := of_check returned
  exact ⟨entry, found, (Except.ok.inj returned).symm⟩

/-- A section is left where its length says. -/
theorem endReadSection_returned
    {f g : BinFile}
    {entry : Section}
    (reading : f.readingSection = some entry)
    (returned : f.endReadSection true = .ok g) :
    (f.pos + 2 ^ 64 - entry.start) % 2 ^ 64 = entry.size := by
  unfold BinFile.endReadSection at returned
  simp only [reading, if_true] at returned
  split_ifs at returned with differs
  exact not_not.mp differs

/--
The header that is loaded from a file that is read lies in the file, and its
section is as long as the prime and two numbers.
-/
theorem loadHeader_section
    {addr : ℕ → UInt8}
    {size : ℕ}
    (fits : size < 2 ^ 63)
    {type : List UInt8}
    {maxVersion : ℕ}
    {f g : BinFile}
    (returned : readFileData addr size type maxVersion = .ok f)
    {header : Header}
    (loaded : loadHeader f = .ok (header, g)) :
    ∃ entry,
      f.find 1 0 = .ok entry ∧
        entry.size = 4 + header.n8 + 4 ∧ entry.start + entry.size ≤ size := by
  have bounded := readFileData_bounded returned
  obtain ⟨first, begun, loaded⟩ := exists_of_bind loaded
  obtain ⟨⟨n8, second⟩, readLength, loaded⟩ := exists_of_bind loaded
  obtain ⟨⟨start, third⟩, readPrime, loaded⟩ := exists_of_bind loaded
  obtain ⟨⟨nVars, fourth⟩, readVariables, loaded⟩ := exists_of_bind loaded
  obtain ⟨fifth, ended, loaded⟩ := exists_of_bind loaded
  obtain ⟨rfl, -⟩ := Prod.mk.inj (Except.ok.inj loaded)
  obtain ⟨entry, found, started⟩ := startReadSection_returned begun
  have start_le := (bounded.sections _ _ (BinFile.mem_of_find found)).1
  have first_bounded : first.Bounded addr size := by
    rw [started]
    exact ⟨bounded.addr_eq, bounded.size_eq, start_le, bounded.sections⟩
  obtain ⟨n8_lt, moved, inside⟩ := BinFile.readU32LE_returned readLength
  obtain ⟨second_bounded, second_pos, second_reading⟩ :=
    forward_of_moved first_bounded fits (by omega) moved inside
  obtain ⟨-, moved, inside⟩ := BinFile.read_returned readPrime
  obtain ⟨third_bounded, third_pos, third_reading⟩ :=
    forward_of_moved second_bounded fits (by omega) moved inside
  obtain ⟨-, moved, inside⟩ := BinFile.readU32LE_returned readVariables
  obtain ⟨fourth_bounded, fourth_pos, fourth_reading⟩ :=
    forward_of_moved third_bounded fits (by omega) moved inside
  have first_pos : first.pos = entry.start := by rw [started]
  have first_reading : first.readingSection = some entry := by rw [started]
  have covered :=
    endReadSection_returned
      (fourth_reading.trans (third_reading.trans
        (second_reading.trans first_reading))) ended
  have fourth_le := fourth_bounded.pos_le
  have length_eq : entry.size = 4 + n8 + 4 := by omega
  exact ⟨entry, found, length_eq, by omega⟩

/-- A witness of two variables over the field of seven elements. -/
def smallFile : List UInt8 :=
  wtnsType ++
    [2, 0, 0, 0, 1, 0, 0, 0, 1, 0, 0, 0, 9, 0, 0, 0, 0, 0, 0, 0,
      1, 0, 0, 0, 7, 2, 0, 0, 0]

/-- The header of a small witness is loaded from its section. -/
theorem loadHeader_small :
    ∃ f g,
      readFileData (bytesAt smallFile) 33 wtnsType 2 = .ok f ∧
        loadHeader f = .ok ({ n8 := 1, prime := 7, nVars := 2 }, g) ∧
          ∃ entry, f.find 1 0 = .ok entry ∧ entry.size = 9 := by
  have small :
      (do
        let f ← readFileData (bytesAt smallFile) 33 wtnsType 2
        let (header, _) ← loadHeader f
        return header) = .ok { n8 := 1, prime := 7, nVars := 2 } := by
    decide +kernel
  obtain ⟨f, accepted, small⟩ := exists_of_bind small
  obtain ⟨⟨header, g⟩, loaded, small⟩ := exists_of_bind small
  obtain rfl := Except.ok.inj small
  obtain ⟨entry, found, length_eq, -⟩ :=
    loadHeader_section (by omega) accepted loaded
  exact ⟨f, g, accepted, loaded, entry, found, length_eq⟩

end WtnsUtils

end StarkCash.Rapidsnark
