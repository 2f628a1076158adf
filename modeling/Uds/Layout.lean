import Mathlib.Data.List.Basic
import Mathlib.Data.List.GetD

/-!
# The `sockaddr_un` buffer behind `UnixSocketAddr`

A target is described by the sizes the source reads with `mem::size_of`: the
offset of `sun_path` (`path_offset()`), the size of `sun_path` and of
`sa_family_t`, whether abstract addresses exist, and the width of `isize`, which
`as_ref` casts the length to. `sun_path` is a list of
exactly `capacity` bytes, so no value of `SockaddrUn` has another size; the used
length of a `UnixSocketAddr` is a plain number, as `socklen_t` is in the source.
-/
namespace Uds

/-- The layout facts `addr.rs` reads from `libc` and `cfg!`. -/
structure Platform where
  /-- `path_offset()`: `size_of::<sockaddr_un>()` minus the size of `sun_path`. -/
  pathOffset : ℕ
  /-- `mem::size_of_val(&sun_path)`. -/
  capacity : ℕ
  /-- `mem::size_of::<sa_family_t>()`. -/
  familySize : ℕ
  /-- `cfg!(any(target_os="linux", target_os="android"))`. -/
  hasAbstractAddresses : Bool
  /-- `std::env::consts::OS`. -/
  os : String
  /-- `cfg!(target_pointer_width)`: the bits of `isize` and `usize`. -/
  pointerWidth : ℕ
  capacity_pos : 0 < capacity
  familySize_le : familySize ≤ pathOffset
  /-- Rust bounds every size by `isize::MAX`, `2^31 - 1` where `isize` has 32 bits;
  `sockaddr_un` is far below it on every target. -/
  size_lt : pathOffset + capacity < 2147483648

namespace Platform

/-- `mem::size_of::<sockaddr_un>()`. -/
def size (p : Platform) : ℕ := p.pathOffset + p.capacity

/-- glibc on 64-bit Linux: `sa_family_t` is `u16`, `sun_path` is `[c_char; 108]`. -/
def linux : Platform :=
  ⟨2, 108, 2, true, "linux", 64, by decide, by decide, by decide⟩

/-- 64-bit macOS: `sun_len` and `sun_family` are one byte each, `sun_path` is
`[c_char; 104]`. -/
def macos : Platform :=
  ⟨2, 104, 1, false, "macos", 64, by decide, by decide, by decide⟩

end Platform

/-- `libc::AF_UNIX`. -/
def afUnix : ℕ := 1

inductive ErrorKind where
  | notFound | invalidInput | invalidData | addrNotAvailable
  deriving DecidableEq, Repr

/-- `io::Error::new(kind, message)`. -/
structure IoError where
  kind : ErrorKind
  message : String
  deriving DecidableEq, Repr

/-- `&xs[lo..hi]`; `none` where the range check panics. -/
def sliceRange {α : Type} (xs : List α) (lo hi : ℕ) : Option (List α) :=
  if lo ≤ hi ∧ hi ≤ xs.length then some ((xs.take hi).drop lo) else none

theorem sliceRange_eq_some {α : Type} {xs : List α} {lo hi : ℕ} (h : lo ≤ hi ∧ hi ≤ xs.length) :
    sliceRange xs lo hi = some ((xs.take hi).drop lo) := if_pos h

theorem sliceRange_eq_none {α : Type} {xs : List α} {lo hi : ℕ} (h : xs.length < hi) :
    sliceRange xs lo hi = none := if_neg (by omega)

/-- A slice reads the length of the list and its elements below `hi`, nothing else. -/
theorem sliceRange_congr {α : Type} {xs ys : List α} {lo hi : ℕ} (hl : xs.length = ys.length)
    (ht : xs.take hi = ys.take hi) : sliceRange xs lo hi = sliceRange ys lo hi := by
  simp only [sliceRange, hl, ht]

/-- `for (dst, src) in dsts.iter_mut().zip(srcs) { *dst = *src; }` -/
def zipAssign : List UInt8 → List UInt8 → List UInt8
  | [], _ => []
  | ds, [] => ds
  | _ :: ds, s :: ss => s :: zipAssign ds ss

theorem zipAssign_eq (ds ss : List UInt8) :
    zipAssign ds ss = ss.take ds.length ++ ds.drop ss.length := by
  induction ds, ss using zipAssign.induct with
  | case1 ss => simp [zipAssign]
  | case2 ds h => cases ds <;> simp_all [zipAssign]
  | case3 d ds s ss ih => simp [zipAssign, ih]

@[simp] theorem length_zipAssign (ds ss : List UInt8) :
    (zipAssign ds ss).length = ds.length := by
  rw [zipAssign_eq]; simp; omega

/-- The native address structure, without `sun_len` (BSD and macOS) and padding:
no function of the module tests them. `into_raw` and `as_raw` hand `sun_len` out
with the rest of the buffer, and `from_raw`'s result has it 0 (the zeroed
`new_unspecified` buffer), so theorems about raw buffers here say nothing of it. -/
structure SockaddrUn (p : Platform) where
  sunFamily : ℕ
  sunPath : List UInt8
  sunPath_length : sunPath.length = p.capacity
  deriving DecidableEq

namespace SockaddrUn

variable {p : Platform}

/-- `sun_path[i]`; every index the source reads is below the capacity. -/
def pathAt (a : SockaddrUn p) (i : ℕ) : UInt8 := a.sunPath.getD i 0

/-- `sun_path[i] = b`. -/
def setPath (a : SockaddrUn p) (i : ℕ) (b : UInt8) : SockaddrUn p :=
  ⟨a.sunFamily, a.sunPath.set i b, by simp [a.sunPath_length]⟩

/-- The copy loop over `sun_path[start..]`. -/
def copyPath (a : SockaddrUn p) (start : ℕ) (src : List UInt8) : SockaddrUn p :=
  ⟨a.sunFamily, a.sunPath.take start ++ zipAssign (a.sunPath.drop start) src, by
    have := a.sunPath_length; simp; omega⟩

@[simp] theorem sunFamily_setPath (a : SockaddrUn p) (i : ℕ) (b : UInt8) :
    (a.setPath i b).sunFamily = a.sunFamily := rfl

theorem pathAt_setPath_self (a : SockaddrUn p) {i : ℕ} (h : i < p.capacity) (b : UInt8) :
    (a.setPath i b).pathAt i = b := by
  simp [pathAt, setPath, a.sunPath_length, h]

theorem pathAt_setPath_ne (a : SockaddrUn p) {i j : ℕ} (h : i ≠ j) (b : UInt8) :
    (a.setPath i b).pathAt j = a.pathAt j := by
  simp [pathAt, setPath, h]

/-- Writing the byte that is already there changes nothing. -/
theorem setPath_eq_self {a : SockaddrUn p} {i : ℕ} {b : UInt8} (h : a.pathAt i = b)
    (hi : i < p.capacity) : a.setPath i b = a := by
  have hl := a.sunPath_length
  obtain ⟨f, sp, hsp⟩ := a
  simp only [setPath, SockaddrUn.mk.injEq, true_and]
  apply List.ext_getElem (List.length_set ..)
  intro j _ _
  rw [List.getElem_set]
  split
  · subst j; rw [← h, pathAt, List.getD_eq_getElem _ _ (by omega)]
  · rfl

@[simp] theorem sunFamily_copyPath (a : SockaddrUn p) (start : ℕ) (src : List UInt8) :
    (a.copyPath start src).sunFamily = a.sunFamily := rfl

/-- Two `sun_path`s that agree below `n` have the same first `n` bytes. -/
theorem take_sunPath_congr {a b : SockaddrUn p} {n : ℕ} (h : ∀ i < n, a.pathAt i = b.pathAt i) :
    a.sunPath.take n = b.sunPath.take n := by
  have ha := a.sunPath_length
  have hb := b.sunPath_length
  apply List.ext_getElem (by simp [ha, hb])
  intro i hi _
  simp only [List.length_take, ha] at hi
  have hab := h i (by omega)
  simp only [pathAt, List.getD_eq_getElem?_getD, Option.getD_some,
    List.getElem?_eq_getElem (show i < a.sunPath.length by omega),
    List.getElem?_eq_getElem (show i < b.sunPath.length by omega)] at hab
  simpa only [List.getElem_take] using hab

end SockaddrUn

/-- A unix domain socket address: the native structure and how many of its
bytes are in use. -/
structure UnixSocketAddr (p : Platform) where
  addr : SockaddrUn p
  len : ℕ
  deriving DecidableEq

namespace UnixSocketAddr

/-- A zeroed `sockaddr_un` with `sun_family = AF_UNIX` and `len` the size of
`sa_family_t`. -/
def newUnspecified (p : Platform) : UnixSocketAddr p :=
  ⟨⟨afUnix, List.replicate p.capacity 0, List.length_replicate _ _⟩, p.familySize⟩

def maxPathLen (p : Platform) : ℕ := p.capacity

def maxAbstractLen (p : Platform) : ℕ := p.capacity - 1

def hasAbstractAddresses (p : Platform) : Bool := p.hasAbstractAddresses

/-- The bound documented on the `len` field: never more than
`size_of::<sockaddr_un>()`. -/
def WellFormed {p : Platform} (a : UnixSocketAddr p) : Prop := a.len ≤ p.size

instance {p : Platform} (a : UnixSocketAddr p) : Decidable a.WellFormed :=
  inferInstanceAs (Decidable (a.len ≤ p.size))

end UnixSocketAddr

end Uds
