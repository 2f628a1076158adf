import Uds.Layout

/-!
# The `UnixSocketAddrRef` view, the classifiers and equality

`as_ref` reads the used part of `sun_path` through two range-checked slices, so
it is partial: it is `none` exactly where the source panics. The `Path` payload
compares as a `std::path::Path`, by its components, which this module models for
Unix targets. Equality of addresses and comparison with unescaped bytes are
both functions of the view.
-/
namespace Uds

/-- `std::path::Component` on Unix, where paths have no prefix. -/
inductive Component where
  | rootDir | curDir | parentDir
  | normal (name : List UInt8)
  deriving DecidableEq, Repr

namespace Path

/-- The component `Path::components` yields before the body: `RootDir` for a
leading `/`, `CurDir` for a relative path whose first part is `.`. -/
def start : List UInt8 → List Component
  | [] => []
  | b :: rest =>
    if b = '/'.toUInt8 then [.rootDir]
    else if b = '.'.toUInt8 ∧ rest.head?.all (· == '/'.toUInt8) then [.curDir] else []

/-- One `/`-separated part of the body; empty and `.` parts yield nothing. -/
def part (bytes : List UInt8) : Option Component :=
  if bytes = [] ∨ bytes = ['.'.toUInt8] then none
  else if bytes = ['.'.toUInt8, '.'.toUInt8] then some .parentDir
  else some (.normal bytes)

/-- `Path::components` on Unix. -/
def components (path : List UInt8) : List Component :=
  start path ++ (path.splitOn '/'.toUInt8).filterMap part

/-- `PartialEq for Path`: equal component sequences. -/
def eq (x y : List UInt8) : Bool := components x == components y

end Path

/-- The pattern-matchable view of an address. -/
inductive UnixSocketAddrRef where
  | unnamed
  | path (bytes : List UInt8)
  | abstract (bytes : List UInt8)
  deriving DecidableEq, Repr

/-- The derived `PartialEq` of `UnixSocketAddrRef`: the `Path` payloads are
`&Path` and compare as paths, the `Abstract` payloads as byte slices. -/
def UnixSocketAddrRef.eq : UnixSocketAddrRef → UnixSocketAddrRef → Bool
  | .unnamed, .unnamed => true
  | .path x, .path y => Path.eq x y
  | .abstract x, .abstract y => x == y
  | _, _ => false

/-- The bytes `PartialEq<[u8]>` compares a view with: nothing for the unnamed
address, a path's own bytes, and the NUL marker before an abstract name. -/
def UnixSocketAddrRef.unescaped : UnixSocketAddrRef → List UInt8
  | .unnamed => []
  | .path q => q
  | .abstract n => 0 :: n

namespace UnixSocketAddr

variable {p : Platform}

/-- `addr.len as isize - path_offset() as isize`, the `name_len` of `as_ref`.
Where `isize` has 32 bits the cast reads a `socklen_t` of `2^31` or more as that
length minus `2^32`, and for the first `path_offset()` of those lengths the
subtraction leaves `isize`: it panics, or in a release build wraps to a length
every slice after it rejects, so `none`. A length no `socklen_t` holds is `none`. -/
def nameLen (a : UnixSocketAddr p) : Option ℤ :=
  if UInt32.size ≤ a.len then none
  else if p.pointerWidth ≤ 32 ∧ 2147483648 ≤ a.len then
    if a.len < 2147483648 + p.pathOffset then none
    else some ((a.len : ℤ) - UInt32.size - p.pathOffset)
  else some ((a.len : ℤ) - p.pathOffset)

/-- `From<&UnixSocketAddr> for UnixSocketAddrRef`. -/
def asRef (a : UnixSocketAddr p) : Option UnixSocketAddrRef :=
  a.nameLen.bind fun n =>
    if n ≤ 0 then some .unnamed
    else if a.addr.pathAt 0 = 0 then (sliceRange a.addr.sunPath 1 n.toNat).map .abstract
    else (sliceRange a.addr.sunPath 0 n.toNat).map fun s =>
      .path (if s.getLast? = some 0 then s.take (n.toNat - 1) else s)

def isUnnamed (a : UnixSocketAddr p) : Bool :=
  if hasAbstractAddresses p then decide (a.len ≤ p.pathOffset)
  else decide (a.len ≤ p.pathOffset) || a.addr.pathAt 0 == 0

def isAbstract (a : UnixSocketAddr p) : Bool :=
  if hasAbstractAddresses p then decide (p.pathOffset < a.len) && a.addr.pathAt 0 == 0
  else false

def isAbsolutePath (a : UnixSocketAddr p) : Bool :=
  decide (p.pathOffset < a.len) && a.addr.pathAt 0 == '/'.toUInt8

def isRelativePath (a : UnixSocketAddr p) : Bool :=
  decide (p.pathOffset < a.len) && a.addr.pathAt 0 != 0 && a.addr.pathAt 0 != '/'.toUInt8

def isPath (a : UnixSocketAddr p) : Bool :=
  decide (p.pathOffset < a.len) && a.addr.pathAt 0 != 0

/-- `PartialEq for UnixSocketAddr`: `self.as_ref() == other.as_ref()`. -/
def eq (a b : UnixSocketAddr p) : Option Bool := do
  let x ← a.asRef
  let y ← b.asRef
  pure (x.eq y)

/-- `PartialEq<[u8]> for UnixSocketAddr`. -/
def eqBytes (a : UnixSocketAddr p) (unescaped : List UInt8) : Option Bool :=
  a.asRef.map fun r => match r, unescaped.head? with
    | .path q, some _ => q == unescaped
    | .abstract name, some b => b == 0 && name == unescaped.drop 1
    | .unnamed, none => true
    | _, _ => false

section Classify

variable {a : UnixSocketAddr p}

theorem isUnnamed_iff : a.isUnnamed = true ↔
    a.len ≤ p.pathOffset ∨ (hasAbstractAddresses p = false ∧ a.addr.pathAt 0 = 0) := by
  cases h : hasAbstractAddresses p <;> simp [isUnnamed, h]

theorem isAbstract_iff : a.isAbstract = true ↔
    hasAbstractAddresses p = true ∧ p.pathOffset < a.len ∧ a.addr.pathAt 0 = 0 := by
  cases h : hasAbstractAddresses p <;> simp [isAbstract, h]

theorem isPath_iff : a.isPath = true ↔ p.pathOffset < a.len ∧ a.addr.pathAt 0 ≠ 0 := by
  simp [isPath]

theorem isAbsolutePath_iff : a.isAbsolutePath = true ↔
    p.pathOffset < a.len ∧ a.addr.pathAt 0 = '/'.toUInt8 := by
  simp [isAbsolutePath]

theorem isRelativePath_iff : a.isRelativePath = true ↔
    p.pathOffset < a.len ∧ a.addr.pathAt 0 ≠ 0 ∧ a.addr.pathAt 0 ≠ '/'.toUInt8 := by
  simp [isRelativePath, and_assoc]

/-- The five predicates read the length and, past the offset, the first byte of
`sun_path`, nothing else. -/
theorem classify_congr {b : UnixSocketAddr p} (hl : a.len = b.len)
    (h0 : p.pathOffset < a.len → a.addr.pathAt 0 = b.addr.pathAt 0) :
    a.isUnnamed = b.isUnnamed ∧ a.isAbstract = b.isAbstract ∧ a.isPath = b.isPath ∧
      a.isAbsolutePath = b.isAbsolutePath ∧ a.isRelativePath = b.isRelativePath := by
  by_cases h : p.pathOffset < a.len
  · simp only [isUnnamed, isAbstract, isPath, isAbsolutePath, isRelativePath, hl, h0 h, and_self]
  · have h' : a.len ≤ p.pathOffset := Nat.not_lt.mp h
    simp [isUnnamed, isAbstract, isPath, isAbsolutePath, isRelativePath, ← hl, h, h']

/-- Past the offset, the five predicates read the first byte of `sun_path` only,
whatever the two lengths are. -/
theorem classify_congr_of_lt {b : UnixSocketAddr p} (ha : p.pathOffset < a.len)
    (hb : p.pathOffset < b.len) (h0 : a.addr.pathAt 0 = b.addr.pathAt 0) :
    a.isUnnamed = b.isUnnamed ∧ a.isAbstract = b.isAbstract ∧ a.isPath = b.isPath ∧
      a.isAbsolutePath = b.isAbsolutePath ∧ a.isRelativePath = b.isRelativePath := by
  simp [isUnnamed, isAbstract, isPath, isAbsolutePath, isRelativePath, ha, hb, h0,
    Nat.not_le.mpr ha, Nat.not_le.mpr hb]

theorem isPath_eq_false_of_isAbstract (h : a.isAbstract = true) : a.isPath = false := by
  rw [isAbstract_iff] at h
  simp [isPath, h.2.2]

end Classify

section View

variable {a : UnixSocketAddr p}

theorem nameLen_of_lt (h : a.len < 2147483648) : a.nameLen = some ((a.len : ℤ) - p.pathOffset) := by
  rw [nameLen, if_neg (Nat.not_le.mpr (h.trans (by decide))), if_neg (by omega)]

/-- Within the bound the cast is exact on every target. -/
theorem nameLen_of_wellFormed (hw : a.WellFormed) : a.nameLen = some ((a.len : ℤ) - p.pathOffset) :=
  nameLen_of_lt (by have := p.size_lt; simp only [WellFormed, Platform.size] at hw; omega)

/-- `name_len` never exceeds the bytes past the offset. -/
theorem nameLen_toNat_le {n : ℤ} (h : a.nameLen = some n) : n.toNat ≤ a.len - p.pathOffset := by
  unfold nameLen at h
  split_ifs at h <;> cases h <;> omega

theorem asRef_of_le (h : a.len ≤ p.pathOffset) : a.asRef = some .unnamed := by
  rw [asRef, nameLen_of_lt (by have := p.size_lt; omega), Option.some_bind, if_pos (by omega)]

theorem asRef_of_abstract (h : p.pathOffset < a.len) (hw : a.WellFormed) (h0 : a.addr.pathAt 0 = 0) :
    a.asRef = some (.abstract ((a.addr.sunPath.take (a.len - p.pathOffset)).drop 1)) := by
  have := a.addr.sunPath_length
  rw [asRef, nameLen_of_wellFormed hw, Option.some_bind, if_neg (by omega), if_pos h0,
    show ((a.len : ℤ) - p.pathOffset).toNat = a.len - p.pathOffset by omega]
  simp only [WellFormed, Platform.size] at hw
  rw [sliceRange_eq_some (by omega)]; rfl

theorem asRef_of_path (h : p.pathOffset < a.len) (hw : a.WellFormed) (h0 : a.addr.pathAt 0 ≠ 0) :
    a.asRef = some (.path (let s := a.addr.sunPath.take (a.len - p.pathOffset)
      if s.getLast? = some 0 then s.take (a.len - p.pathOffset - 1) else s)) := by
  have := a.addr.sunPath_length
  rw [asRef, nameLen_of_wellFormed hw, Option.some_bind, if_neg (by omega), if_neg h0,
    show ((a.len : ℤ) - p.pathOffset).toNat = a.len - p.pathOffset by omega]
  simp only [WellFormed, Platform.size] at hw
  rw [sliceRange_eq_some (by omega)]; rfl

/-- Where `isize` has 32 bits, a length the cast reads as negative, and far
enough below zero that the subtraction stays in `isize`, views as unnamed. -/
theorem asRef_of_wrap (h32 : p.pointerWidth ≤ 32) (hlo : 2147483648 + p.pathOffset ≤ a.len)
    (hhi : a.len < UInt32.size) : a.asRef = some .unnamed := by
  have hU : UInt32.size = 4294967296 := rfl
  rw [asRef, nameLen, if_neg (by omega), if_pos ⟨h32, by omega⟩, if_neg (by omega), Option.some_bind,
    if_pos (by omega)]

/-- The view reads the length and the `len - offset` bytes of `sun_path` it
covers, nothing else: not the family, not the bytes past them. -/
theorem asRef_congr {b : UnixSocketAddr p} (hl : a.len = b.len)
    (hs : ∀ i < a.len - p.pathOffset, a.addr.pathAt i = b.addr.pathAt i) : a.asRef = b.asRef := by
  have hn : a.nameLen = b.nameLen := by simp only [nameLen, hl]
  have hc := a.addr.sunPath_length.trans b.addr.sunPath_length.symm
  rw [asRef, asRef, ← hn]
  rcases hna : a.nameLen with _ | n
  · rfl
  simp only [Option.some_bind]
  by_cases hn0 : n ≤ 0
  · rw [if_pos hn0, if_pos hn0]
  have hle := nameLen_toNat_le hna
  have ht : a.addr.sunPath.take n.toNat = b.addr.sunPath.take n.toNat :=
    SockaddrUn.take_sunPath_congr fun i hi => hs i (by omega)
  simp only [if_neg hn0, hs 0 (by omega), sliceRange_congr hc ht]

theorem newUnspecified_asRef (p : Platform) : (newUnspecified p).asRef = some .unnamed :=
  asRef_of_le p.familySize_le

/-- The three shapes of the view of an address within the bound. A `Path`
payload starts with the first byte of `sun_path`: a lone trailing NUL is
stripped only after a non-NUL first byte. -/
theorem asRef_cases (hw : a.WellFormed) :
    (a.len ≤ p.pathOffset ∧ a.asRef = some .unnamed) ∨
    (p.pathOffset < a.len ∧ a.addr.pathAt 0 = 0 ∧ ∃ n, a.asRef = some (.abstract n)) ∨
    (p.pathOffset < a.len ∧ a.addr.pathAt 0 ≠ 0 ∧
      ∃ q, a.asRef = some (.path q) ∧ q.head? = some (a.addr.pathAt 0)) := by
  by_cases h : a.len ≤ p.pathOffset
  · exact .inl ⟨h, asRef_of_le h⟩
  by_cases h0 : a.addr.pathAt 0 = 0
  · exact .inr (.inl ⟨by omega, h0, _, asRef_of_abstract (by omega) hw h0⟩)
  refine .inr (.inr ⟨by omega, h0, _, asRef_of_path (by omega) hw h0, ?_⟩)
  have hc := a.addr.sunPath_length
  have hpos := p.capacity_pos
  have hhead : a.addr.sunPath.head? = some (a.addr.pathAt 0) := by
    rw [List.head?_eq_getElem?, SockaddrUn.pathAt, List.getD_eq_getElem?_getD,
      List.getElem?_eq_getElem (by omega), Option.getD_some]
  dsimp only
  split
  · rename_i hl
    have h1 : a.len - p.pathOffset - 1 ≠ 0 := by
      intro h1
      rw [List.getLast?_take, if_neg (show a.len - p.pathOffset ≠ 0 by omega), h1,
        ← List.head?_eq_getElem?, hhead] at hl
      exact h0 (by simpa using hl)
    rw [List.head?_take, if_neg h1, List.head?_take, if_neg (show a.len - p.pathOffset ≠ 0 by omega),
      hhead]
  · rw [List.head?_take, if_neg (show a.len - p.pathOffset ≠ 0 by omega), hhead]

/-- The view panics exactly on the addresses past the documented bound, except
where `isize` has 32 bits: there the lengths the cast reads as negative, once
the subtraction stays in `isize`, view as unnamed. -/
theorem asRef_isSome_iff : a.asRef.isSome ↔ a.WellFormed ∨
    (p.pointerWidth ≤ 32 ∧ 2147483648 + p.pathOffset ≤ a.len ∧ a.len < UInt32.size) := by
  have hc := a.addr.sunPath_length
  have hs := p.size_lt
  have hU : UInt32.size = 4294967296 := rfl
  by_cases hw : a.WellFormed
  · rcases asRef_cases hw with ⟨-, h⟩ | ⟨-, -, _, h⟩ | ⟨-, -, _, h, -⟩ <;> simp [h, hw]
  simp only [hw, false_or]
  simp only [WellFormed, Platform.size, not_le] at hw
  by_cases hwrap : p.pointerWidth ≤ 32 ∧ 2147483648 + p.pathOffset ≤ a.len ∧ a.len < UInt32.size
  · simp [asRef_of_wrap hwrap.1 hwrap.2.1 hwrap.2.2, hwrap]
  suffices h : a.asRef = none by simp [h, hwrap]
  rw [asRef, nameLen]
  by_cases h1 : UInt32.size ≤ a.len
  · rw [if_pos h1]; rfl
  rw [if_neg h1]
  by_cases h2 : p.pointerWidth ≤ 32 ∧ 2147483648 ≤ a.len
  · rw [if_pos h2, if_pos (by omega)]; rfl
  -- the exact cast: `name_len` runs past `sun_path`, and both slices panic
  rw [if_neg h2, Option.some_bind, if_neg (by omega),
    show ((a.len : ℤ) - p.pathOffset).toNat = a.len - p.pathOffset by omega]
  split <;> simp [sliceRange_eq_none (show a.addr.sunPath.length < a.len - p.pathOffset by omega)]

theorem asRef_isSome (hw : a.WellFormed) : a.asRef.isSome := asRef_isSome_iff.mpr (.inl hw)

/-- A path or abstract view is of an address within the bound. -/
theorem wellFormed_of_asRef {r : UnixSocketAddrRef} (h : a.asRef = some r) (hr : r ≠ .unnamed) :
    a.WellFormed := by
  rcases asRef_isSome_iff.mp (show a.asRef.isSome by rw [h]; rfl) with hw | ⟨h32, hlo, hhi⟩
  · exact hw
  · exact absurd (Option.some.inj ((asRef_of_wrap h32 hlo hhi).symm.trans h)) (Ne.symm hr)

theorem isPath_eq_xor : a.isPath = xor a.isAbsolutePath a.isRelativePath := by
  have hs : ('/'.toUInt8 : UInt8) ≠ 0 := by decide
  by_cases hl : p.pathOffset < a.len <;> by_cases h0 : a.addr.pathAt 0 = 0 <;>
    by_cases h1 : a.addr.pathAt 0 = '/'.toUInt8 <;>
    simp [isPath, isAbsolutePath, isRelativePath, hl, h0, h1, bne, Bool.beq_eq_decide_eq, hs] <;>
    simp_all

/-- Exactly one of the three classifiers holds, on every target, and a path is
exactly one of absolute and relative. -/
theorem classify_exactlyOne : a.isUnnamed.toNat + a.isAbstract.toNat + a.isPath.toNat = 1 ∧
    a.isPath = xor a.isAbsolutePath a.isRelativePath := by
  refine ⟨?_, isPath_eq_xor⟩
  cases hA : hasAbstractAddresses p <;> by_cases hl : p.pathOffset < a.len <;>
    by_cases h0 : a.addr.pathAt 0 = 0 <;>
    simp [isUnnamed, isAbstract, isPath, hA, hl, Nat.not_le.mpr, h0, bne,
      Bool.beq_eq_decide_eq] <;> omega

theorem isPath_iff_asRef (hw : a.WellFormed) : a.isPath = true ↔ ∃ q, a.asRef = some (.path q) := by
  rcases asRef_cases hw with ⟨hl, he⟩ | ⟨-, h0, n, he⟩ | ⟨hl, h0, q, he, -⟩
  · simp [isPath_iff, he]; omega
  · simp [isPath_iff, he, h0]
  · simp [isPath_iff, he, h0, hl]

theorem isAbsolutePath_iff_asRef (hw : a.WellFormed) :
    a.isAbsolutePath = true ↔ ∃ q, a.asRef = some (.path q) ∧ q.head? = some '/'.toUInt8 := by
  have hs : ('/'.toUInt8 : UInt8) ≠ 0 := by decide
  rcases asRef_cases hw with ⟨hl, he⟩ | ⟨hl, h0, n, he⟩ | ⟨hl, h0, q, he, hq⟩
  · simp [isAbsolutePath_iff, he]; omega
  · simp [isAbsolutePath_iff, he, h0, hs.symm]
  · simp [isAbsolutePath_iff, he, hq, hl]

theorem isRelativePath_iff_asRef (hw : a.WellFormed) :
    a.isRelativePath = true ↔ ∃ q, a.asRef = some (.path q) ∧ q.head? ≠ some '/'.toUInt8 := by
  rcases asRef_cases hw with ⟨hl, he⟩ | ⟨hl, h0, n, he⟩ | ⟨hl, h0, q, he, hq⟩
  · simp [isRelativePath_iff, he]; omega
  · simp [isRelativePath_iff, he, h0]
  · simp [isRelativePath_iff, he, hq, hl, h0]

/-- On every target, within the bound, the three path predicates agree with the
view: `is_path` with a `Path` view, `is_absolute_path` and `is_relative_path`
with its first byte being `'/'` or not. -/
theorem pathPredicates_agree_asRef (hw : a.WellFormed) :
    (a.isPath = true ↔ ∃ q, a.asRef = some (.path q)) ∧
    (a.isAbsolutePath = true ↔ ∃ q, a.asRef = some (.path q) ∧ q.head? = some '/'.toUInt8) ∧
    (a.isRelativePath = true ↔ ∃ q, a.asRef = some (.path q) ∧ q.head? ≠ some '/'.toUInt8) :=
  ⟨isPath_iff_asRef hw, isAbsolutePath_iff_asRef hw, isRelativePath_iff_asRef hw⟩

theorem pathPredicates_agree_macos_root :
    (⟨(newUnspecified Platform.macos).addr.setPath 0 47, 3⟩ : UnixSocketAddr Platform.macos).WellFormed ∧
    ((⟨(newUnspecified Platform.macos).addr.setPath 0 47, 3⟩ : UnixSocketAddr Platform.macos).isAbsolutePath = true ↔
      ∃ q, (⟨(newUnspecified Platform.macos).addr.setPath 0 47, 3⟩ : UnixSocketAddr Platform.macos).asRef =
        some (.path q) ∧ q.head? = some '/'.toUInt8) :=
  ⟨by decide, (pathPredicates_agree_asRef (by decide)).2.1⟩

/-- On a target with abstract addresses the three classifiers agree with the view. -/
theorem classify_agrees_asRef (hA : hasAbstractAddresses p = true) (hw : a.WellFormed) :
    (a.isUnnamed = true ↔ a.asRef = some .unnamed) ∧
    (a.isAbstract = true ↔ ∃ n, a.asRef = some (.abstract n)) ∧
    (a.isPath = true ↔ ∃ q, a.asRef = some (.path q)) := by
  refine ⟨?_, ?_, isPath_iff_asRef hw⟩ <;>
    rcases asRef_cases hw with ⟨hl, he⟩ | ⟨hl, h0, n, he⟩ | ⟨hl, h0, q, he, -⟩
  all_goals simp [isUnnamed_iff, isAbstract_iff, hA, he, hl]
  all_goals first | omega | exact h0

theorem classify_agrees_abstract_linux :
    (⟨(newUnspecified Platform.linux).addr.setPath 1 97, 4⟩ : UnixSocketAddr Platform.linux).WellFormed ∧
    ((⟨(newUnspecified Platform.linux).addr.setPath 1 97, 4⟩ : UnixSocketAddr Platform.linux).isUnnamed = true ↔
        (⟨(newUnspecified Platform.linux).addr.setPath 1 97, 4⟩ : UnixSocketAddr Platform.linux).asRef =
          some .unnamed) ∧
    ((⟨(newUnspecified Platform.linux).addr.setPath 1 97, 4⟩ : UnixSocketAddr Platform.linux).isAbstract = true ↔
        ∃ n, (⟨(newUnspecified Platform.linux).addr.setPath 1 97, 4⟩ : UnixSocketAddr Platform.linux).asRef =
          some (.abstract n)) ∧
    ((⟨(newUnspecified Platform.linux).addr.setPath 1 97, 4⟩ : UnixSocketAddr Platform.linux).isPath = true ↔
        ∃ q, (⟨(newUnspecified Platform.linux).addr.setPath 1 97, 4⟩ : UnixSocketAddr Platform.linux).asRef =
          some (.path q)) :=
  ⟨by decide, classify_agrees_asRef rfl (by decide)⟩

theorem asRef_eq_abstract {n : List UInt8} (h : a.asRef = some (.abstract n)) :
    a.WellFormed ∧ p.pathOffset < a.len ∧ n.length = a.len - p.pathOffset - 1 := by
  have hw : a.WellFormed := wellFormed_of_asRef h (by simp)
  have hc := a.addr.sunPath_length
  refine ⟨hw, ?_⟩
  rcases asRef_cases hw with ⟨-, he⟩ | ⟨hl, h0, -, -⟩ | ⟨-, -, q, he, -⟩
  · simp [he] at h
  · rw [asRef_of_abstract hl hw h0, Option.some.injEq, UnixSocketAddrRef.abstract.injEq] at h
    simp only [WellFormed, Platform.size] at hw
    subst h
    simp only [List.length_drop, List.length_take]; omega
  · simp [he] at h

theorem asRef_eq_path {q : List UInt8} (h : a.asRef = some (.path q)) :
    a.WellFormed ∧ q ≠ [] ∧ q.head? ≠ some 0 ∧ q.length ≤ a.len - p.pathOffset := by
  have hw : a.WellFormed := wellFormed_of_asRef h (by simp)
  refine ⟨hw, ?_⟩
  rcases asRef_cases hw with ⟨-, he⟩ | ⟨-, -, n, he⟩ | ⟨hl, h0, q', he, hq⟩
  · simp [he] at h
  · simp [he] at h
  · obtain rfl : q' = q := by simpa [he] using h
    refine ⟨fun h' => by simp [h'] at hq, by simpa [hq] using h0, ?_⟩
    rw [asRef_of_path hl hw h0, Option.some.injEq, UnixSocketAddrRef.path.injEq] at he
    rw [← he]
    dsimp only
    split <;> simp only [List.length_take] <;> omega

/-- Comparing with bytes is comparing with the view's unescaped form. -/
theorem eqBytes_eq_decide {r : UnixSocketAddrRef} (h : a.asRef = some r) (s : List UInt8) :
    a.eqBytes s = some (decide (s = r.unescaped)) := by
  cases r with
  | unnamed => cases s <;> simp [eqBytes, h, UnixSocketAddrRef.unescaped]
  | path q =>
    have hq := (asRef_eq_path h).2.1
    cases s <;> simp [eqBytes, h, UnixSocketAddrRef.unescaped, Ne.symm hq]
    rw [Bool.beq_eq_decide_eq]
    exact decide_eq_decide.mpr eq_comm
  | abstract n =>
    cases s <;> simp [eqBytes, h, UnixSocketAddrRef.unescaped]
    rw [Bool.beq_eq_decide_eq, Bool.beq_eq_decide_eq]
    exact congrArg _ (decide_eq_decide.mpr eq_comm)

end View

end UnixSocketAddr

end Uds
