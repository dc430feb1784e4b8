import StarkCash.BinFile
import StarkCash.Imperative

namespace StarkCash.Rapidsnark

/-!
# Files whose sections follow one another

A file of a type and a supported version, with as many sections as it says one
after another inside it, is read to its end, and every section is found under
its number in the order of the file.
-/

open Imperative WtnsUtils

namespace BinFileUtils

/--
Sections of numbers and lengths that follow one another from a position on.
-/
def LaidOut
    (addr : ℕ → UInt8)
    (size : ℕ) : ℕ → List (ℕ × ℕ) → Prop
  | pos, [] => pos ≤ size
  | pos, (sType, sSize) :: rest =>
      ByteMemory.load addr pos 4 = sType ∧
        ByteMemory.load addr (pos + 4) 8 = sSize ∧
          LaidOut addr size (pos + 12 + sSize) rest

/-- The sections by their numbers, after those that are known. -/
def placed
    (known : ℕ → List Section) : ℕ → List (ℕ × ℕ) → ℕ → List Section
  | _, [] => known
  | pos, (sType, sSize) :: rest =>
      placed
        (Function.update known sType
          (known sType ++ [{ start := pos + 12, size := sSize }]))
        (pos + 12 + sSize) rest

/-- Where the sections end. -/
def layoutEnd : ℕ → List (ℕ × ℕ) → ℕ
  | pos, [] => pos
  | pos, (_, sSize) :: rest => layoutEnd (pos + 12 + sSize) rest

section Layout

variable
    {addr : ℕ → UInt8}
    {size : ℕ}

/-- Every section takes at least twelve bytes of the file. -/
theorem LaidOut.count_le
    {pos : ℕ}
    {layout : List (ℕ × ℕ)}
    (laidOut : LaidOut addr size pos layout) :
    pos + layout.length * 12 ≤ size := by
  induction layout generalizing pos with
  | nil =>
      exact laidOut
  | cons entry rest inductionHypothesis =>
      have rest_le := inductionHypothesis laidOut.2.2
      rw [List.length_cons]
      omega

/-- Sections lie in the file. -/
theorem LaidOut.pos_le
    {pos : ℕ}
    {layout : List (ℕ × ℕ)}
    (laidOut : LaidOut addr size pos layout) :
    pos ≤ size :=
  (Nat.le_add_right _ _).trans laidOut.count_le

variable {f : BinFile}

/-- Bytes inside the file are read. -/
theorem BinFile.read_eq
    {len : ℕ}
    (fits : f.size < 2 ^ 64)
    (inside : f.pos + len ≤ f.size) :
    f.read len = .ok (f.pos, { f with pos := f.pos + len }) := by
  have unwrapped : advance f.pos len = f.pos + len :=
    Nat.mod_eq_of_lt (by omega)
  unfold BinFile.read
  simp only [unwrapped]
  rw [if_neg (by omega)]

/-- A number of four bytes inside the file is read. -/
theorem BinFile.readU32LE_eq
    (fits : f.size < 2 ^ 64)
    (inside : f.pos + 4 ≤ f.size) :
    f.readU32LE =
      .ok (ByteMemory.load f.addr f.pos 4, { f with pos := f.pos + 4 }) := by
  unfold BinFile.readU32LE
  rw [BinFile.read_eq fits inside]
  rfl

/-- A number of eight bytes inside the file is read. -/
theorem BinFile.readU64LE_eq
    (fits : f.size < 2 ^ 64)
    (inside : f.pos + 8 ≤ f.size) :
    f.readU64LE =
      .ok (ByteMemory.load f.addr f.pos 8, { f with pos := f.pos + 8 }) := by
  unfold BinFile.readU64LE
  rw [BinFile.read_eq fits inside]
  rfl

/-- A section inside the file is recorded. -/
theorem BinFile.recordSection_eq
    {i sType sSize : ℕ}
    (fits : f.size < 2 ^ 64)
    (inside : f.pos + sSize ≤ f.size) :
    f.recordSection i sType sSize =
      .ok
        { f with
          sections :=
            Function.update f.sections sType
              (f.sections sType ++ [{ start := f.pos, size := sSize }])
          pos := f.pos + sSize } := by
  have unwrapped : advance f.pos sSize = f.pos + sSize :=
    Nat.mod_eq_of_lt (by omega)
  unfold BinFile.recordSection
  simp only [unwrapped]
  rw [if_neg (by omega)]

/-- All sections that follow one another are read. -/
theorem BinFile.readSections_eq
    {layout : List (ℕ × ℕ)}
    (fits : f.size < 2 ^ 64)
    (laidOut : LaidOut f.addr f.size f.pos layout)
    (i : ℕ) :
    f.readSections layout.length i =
      .ok
        { f with
          sections := placed f.sections f.pos layout
          pos := layoutEnd f.pos layout } := by
  induction layout generalizing f i with
  | nil =>
      rfl
  | cons entry rest inductionHypothesis =>
      obtain ⟨sType, sSize⟩ := entry
      obtain ⟨type_eq, size_eq, rest_laidOut⟩ := laidOut
      have inside := rest_laidOut.pos_le
      have readType :
          f.readU32LE = .ok (sType, { f with pos := f.pos + 4 }) := by
        rw [BinFile.readU32LE_eq fits (by omega), type_eq]
      have readSize :
          BinFile.readU64LE { f with pos := f.pos + 4 } =
            .ok (sSize, { f with pos := f.pos + 12 }) := by
        rw [BinFile.readU64LE_eq (f := { f with pos := f.pos + 4 }) fits
          (by simp only; omega), size_eq]
      have recorded :
          BinFile.recordSection { f with pos := f.pos + 12 } i sType sSize =
            .ok
              { f with
                sections :=
                  Function.update f.sections sType
                    (f.sections sType ++
                      [{ start := f.pos + 12, size := sSize }])
                pos := f.pos + 12 + sSize } :=
        BinFile.recordSection_eq (f := { f with pos := f.pos + 12 }) fits
          inside
      rw [List.length_cons, BinFile.readSections, readType, ok_bind]
      simp only [readSize, ok_bind, recorded]
      exact
        inductionHypothesis
          (f :=
            { f with
              sections :=
                Function.update f.sections sType
                  (f.sections sType ++
                    [{ start := f.pos + 12, size := sSize }])
              pos := f.pos + 12 + sSize })
          fits rest_laidOut (i + 1)

/-- A file whose sections follow one another is read. -/
theorem readFileData_eq
    {type : List UInt8}
    {version maxVersion : ℕ}
    {layout : List (ℕ × ℕ)}
    (fits : size < 2 ^ 64)
    (type_eq : fileType addr = type)
    (version_eq : ByteMemory.load addr 4 4 = version)
    (supported : version ≤ maxVersion)
    (count_eq : ByteMemory.load addr 8 4 = layout.length)
    (laidOut : LaidOut addr size 12 layout) :
    readFileData addr size type maxVersion =
      .ok
        { addr, size, pos := 0
          sections := placed (fun _ => []) 12 layout
          readingSection := none } := by
  have long := laidOut.count_le
  let started : BinFile :=
    { addr, size, pos := 4, sections := fun _ => [], readingSection := none }
  have readVersion :
      started.readU32LE = .ok (version, { started with pos := 8 }) := by
    rw [BinFile.readU32LE_eq (f := started) fits
      (by simp only [started]; omega)]
    simp only [started, version_eq]
  have readCount :
      BinFile.readU32LE { started with pos := 8 } =
        .ok (layout.length, { started with pos := 12 }) := by
    rw [BinFile.readU32LE_eq (f := { started with pos := 8 }) fits
      (by simp only [started]; omega)]
    simp only [started, count_eq]
  have readSections :=
    @BinFile.readSections_eq { started with pos := 12 } layout fits laidOut 0
  unfold readFileData
  rw [if_neg (by omega), if_neg (not_not.mpr type_eq)]
  change (started.readU32LE >>= _) = _
  rw [readVersion, ok_bind]
  simp only []
  rw [if_neg (by omega), readCount, ok_bind]
  simp only []
  rw [if_neg (by omega), readSections, ok_bind]
  rfl

end Layout

/-- A file of three sections, the first and the last of one number. -/
def threeSections : List UInt8 :=
  wtnsType ++
    [2, 0, 0, 0, 3, 0, 0, 0,
      1, 0, 0, 0, 3, 0, 0, 0, 0, 0, 0, 0, 7, 8, 9,
      2, 0, 0, 0, 2, 0, 0, 0, 0, 0, 0, 0, 5, 6,
      1, 0, 0, 0, 1, 0, 0, 0, 0, 0, 0, 0, 4]

/-- Its sections of one number are found in the order of the file. -/
theorem readFileData_three :
    ∃ f,
      readFileData (bytesAt threeSections) 54 wtnsType 2 = .ok f ∧
        f.sections 1 = [⟨24, 3⟩, ⟨53, 1⟩] ∧
        f.sections 2 = [⟨39, 2⟩] ∧
        f.find 1 1 = .ok ⟨53, 1⟩ := by
  have laidOut :
      LaidOut (bytesAt threeSections) 54 12 [(1, 3), (2, 2), (1, 1)] :=
    ⟨by decide, by decide, by decide, by decide, by decide, by decide,
      le_refl 54⟩
  have versionTwo : ByteMemory.load (bytesAt threeSections) 4 4 = 2 := by
    decide
  exact
    ⟨_,
      readFileData_eq (by omega) rfl versionTwo le_rfl (by decide) laidOut,
      rfl, rfl, rfl⟩

end BinFileUtils

end StarkCash.Rapidsnark
