import Uds.View

/-!
# Constructors

`from_path`, `from_abstract`, `new` and `from_c_str` start from
`new_unspecified()` and copy their input into `sun_path` with the `zip` loop.
`from_c_str` repeats `from_path`'s copy and length code instead of calling it;
the last theorem of the module shows the two copies agree.
-/
namespace Uds

/-- A `&CStr`, seen through `to_bytes()`: the bytes before its terminating NUL. -/
structure CStr where
  toBytes : List UInt8
  nul_free : 0 ∉ toBytes

namespace UnixSocketAddr

/-- `from_path_inner`, on `path.as_ref().as_os_str().as_bytes()`. -/
def fromPath (p : Platform) (path : List UInt8) : Except IoError (UnixSocketAddr p) :=
  let addr := newUnspecified p
  let capacity := p.capacity
  if path.isEmpty then .error ⟨.notFound, "path is empty"⟩
  else if path.length > capacity then
    .error ⟨.invalidInput, "path is too long for an unix socket address"⟩
  else if path.any (· == 0) then .error ⟨.invalidInput, "path cannot contain nul bytes"⟩
  else
    let len := p.pathOffset + path.length
    .ok ⟨addr.addr.copyPath 0 path, if path.length < capacity then len + 1 else len⟩

/-- `from_abstract_inner`: a NUL marker, then the name, not NUL-terminated. -/
def fromAbstract (p : Platform) (name : List UInt8) : Except IoError (UnixSocketAddr p) :=
  let addr := newUnspecified p
  if !hasAbstractAddresses p then
    .error ⟨.addrNotAvailable, "abstract unix domain socket addresses are not available on " ++ p.os⟩
  else if name.length > maxAbstractLen p then .error ⟨.invalidInput, "abstract name is too long"⟩
  else .ok ⟨addr.addr.copyPath 1 name, p.pathOffset + 1 + name.length⟩

/-- `new`: a leading `'@'` or NUL selects an abstract name, nothing the unnamed
address, anything else a path. -/
def new (p : Platform) (addr : List UInt8) : Except IoError (UnixSocketAddr p) :=
  match addr.head? with
  | some b => if b = '@'.toUInt8 ∨ b = 0 then fromAbstract p (addr.drop 1) else fromPath p addr
  | none => .ok (newUnspecified p)

def fromCStr (p : Platform) (path : CStr) : Except IoError (UnixSocketAddr p) :=
  let path := path.toBytes
  let addr := newUnspecified p
  if path.isEmpty then .ok addr
  else if path.length > p.capacity then
    .error ⟨.invalidInput, "path is too long for unix socket address"⟩
  else
    let len := p.pathOffset + path.length
    .ok ⟨addr.addr.copyPath 0 path, if path.length < p.capacity then len + 1 else len⟩

/-- The address both `from_path` and `from_c_str` build from a path they accept. -/
def pathAddr (p : Platform) (path : List UInt8) : UnixSocketAddr p :=
  let len := p.pathOffset + path.length
  ⟨(newUnspecified p).addr.copyPath 0 path, if path.length < p.capacity then len + 1 else len⟩

/-- The address `from_abstract` builds from a name it accepts. -/
def abstractAddr (p : Platform) (name : List UInt8) : UnixSocketAddr p :=
  ⟨(newUnspecified p).addr.copyPath 1 name, p.pathOffset + 1 + name.length⟩

variable {p : Platform}

theorem pathAddr_sunPath {path : List UInt8} (h : path.length ≤ p.capacity) :
    (pathAddr p path).addr.sunPath = path ++ List.replicate (p.capacity - path.length) 0 := by
  simp [pathAddr, SockaddrUn.copyPath, newUnspecified, zipAssign_eq, List.take_of_length_le h]

theorem abstractAddr_sunPath {name : List UInt8} (h : name.length ≤ maxAbstractLen p) :
    (abstractAddr p name).addr.sunPath =
      0 :: (name ++ List.replicate (p.capacity - 1 - name.length) 0) := by
  have := p.capacity_pos
  simp only [maxAbstractLen] at h
  obtain ⟨c, hc⟩ : ∃ c, p.capacity = c + 1 := ⟨p.capacity - 1, by omega⟩
  simp [abstractAddr, SockaddrUn.copyPath, newUnspecified, zipAssign_eq, hc,
    List.replicate_succ, List.take_of_length_le (show name.length ≤ c by omega)]

@[simp] theorem pathAddr_sunFamily (path : List UInt8) :
    (pathAddr p path).addr.sunFamily = afUnix := rfl

@[simp] theorem abstractAddr_sunFamily (name : List UInt8) :
    (abstractAddr p name).addr.sunFamily = afUnix := rfl

theorem pathAddr_len (path : List UInt8) : (pathAddr p path).len =
    if path.length < p.capacity then p.pathOffset + path.length + 1 else p.pathOffset + path.length :=
  rfl

theorem pathAddr_wellFormed {path : List UInt8} (h : path.length ≤ p.capacity) :
    (pathAddr p path).WellFormed := by
  simp only [WellFormed, Platform.size, pathAddr_len]; split <;> omega

theorem abstractAddr_wellFormed {name : List UInt8} (h : name.length ≤ maxAbstractLen p) :
    (abstractAddr p name).WellFormed := by
  have := p.capacity_pos
  simp only [WellFormed, Platform.size, abstractAddr, maxAbstractLen] at *; omega

theorem pathAddr_pathAt_zero {path : List UInt8} (h : path.length ≤ p.capacity) (hne : path ≠ []) :
    (pathAddr p path).addr.pathAt 0 = path.headI := by
  obtain ⟨b, bs, rfl⟩ := List.exists_cons_of_ne_nil hne
  simp [SockaddrUn.pathAt, pathAddr_sunPath h]

/-- The bytes of an encoded path: the path, then zeros. -/
theorem pathAddr_pathAt {path : List UInt8} (h : path.length ≤ p.capacity) (i : ℕ) :
    (pathAddr p path).addr.pathAt i = path.getD i 0 := by
  simp only [SockaddrUn.pathAt, pathAddr_sunPath h, List.getD_eq_getElem?_getD]
  by_cases hi : i < path.length
  · rw [List.getElem?_append_left hi]
  · rw [List.getElem?_append_right (by omega), List.getElem?_replicate,
      List.getElem?_eq_none (by omega)]
    split <;> rfl

theorem abstractAddr_pathAt_zero {name : List UInt8} (h : name.length ≤ maxAbstractLen p) :
    (abstractAddr p name).addr.pathAt 0 = 0 := by
  simp [SockaddrUn.pathAt, abstractAddr_sunPath h]

/-- The view of an encoded path is the path: the terminating NUL `from_path`
adds when there is room is the one `as_ref` strips. -/
theorem pathAddr_asRef {path : List UInt8} (h : path.length ≤ p.capacity) (hne : path ≠ [])
    (h0 : 0 ∉ path) : (pathAddr p path).asRef = some (.path path) := by
  have hhead : path.headI ≠ 0 := by
    obtain ⟨b, bs, rfl⟩ := List.exists_cons_of_ne_nil hne
    exact fun hb => h0 (by simp [← hb])
  have hpos : 0 < path.length := List.length_pos.mpr hne
  rw [asRef_of_path (by rw [pathAddr_len]; split <;> omega) (pathAddr_wellFormed h)
    (by rwa [pathAddr_pathAt_zero h hne])]
  simp only [pathAddr_sunPath h, pathAddr_len]
  by_cases hc : path.length < p.capacity
  · obtain ⟨k, hk⟩ : ∃ k, p.capacity - path.length = k + 1 := ⟨_, (Nat.succ_pred_eq_of_pos (by omega)).symm⟩
    rw [if_pos hc, hk, show p.pathOffset + path.length + 1 - p.pathOffset = path.length + 1 by omega,
      List.take_append, List.replicate_succ]
    simp
  · have hlast : path.getLast? ≠ some 0 := fun hl => h0 (List.mem_of_getLast?_eq_some hl)
    rw [if_neg hc, show p.pathOffset + path.length - p.pathOffset = path.length by omega,
      List.take_left, if_neg hlast]

theorem abstractAddr_asRef {name : List UInt8} (h : name.length ≤ maxAbstractLen p) :
    (abstractAddr p name).asRef = some (.abstract name) := by
  rw [asRef_of_abstract (by simp [abstractAddr]; omega) (abstractAddr_wellFormed h)
    (abstractAddr_pathAt_zero h), abstractAddr_sunPath h,
    show (abstractAddr p name).len - p.pathOffset = name.length + 1 by simp [abstractAddr]; omega]
  simp [List.take_append_eq_append_take]

theorem fromPath_eq_ok_iff {path : List UInt8} {a : UnixSocketAddr p} :
    fromPath p path = .ok a ↔ path ≠ [] ∧ path.length ≤ p.capacity ∧ 0 ∉ path ∧ a = pathAddr p path := by
  by_cases he : path = []
  · simp [fromPath, he]
  by_cases hl : p.capacity < path.length
  · simp [fromPath, he, hl]
  by_cases h0 : 0 ∈ path
  · simp [fromPath, he, hl, h0]
  · simp [fromPath, he, hl, h0, pathAddr, Nat.le_of_not_lt hl]
    exact eq_comm

theorem fromAbstract_eq_ok_iff {name : List UInt8} {a : UnixSocketAddr p} :
    fromAbstract p name = .ok a ↔
      hasAbstractAddresses p = true ∧ name.length ≤ maxAbstractLen p ∧ a = abstractAddr p name := by
  cases hA : hasAbstractAddresses p
  · simp [fromAbstract, hA]
  · by_cases hl : maxAbstractLen p < name.length
    · simp [fromAbstract, hA, hl]
    · simpa [fromAbstract, hA, hl, abstractAddr, Nat.le_of_not_lt hl] using eq_comm

theorem fromCStr_eq_ok_iff {cs : CStr} {a : UnixSocketAddr p} :
    fromCStr p cs = .ok a ↔
      (cs.toBytes = [] ∧ a = newUnspecified p) ∨
      (cs.toBytes ≠ [] ∧ cs.toBytes.length ≤ p.capacity ∧ a = pathAddr p cs.toBytes) := by
  by_cases he : cs.toBytes = []
  · simpa [fromCStr, he] using eq_comm
  by_cases hl : p.capacity < cs.toBytes.length
  · simp [fromCStr, he, hl]
  · simpa [fromCStr, he, hl, pathAddr, Nat.le_of_not_lt hl] using eq_comm

/-- `from_path` fails exactly on an empty, oversized or NUL-carrying path, and
otherwise views back as the same bytes, a path filling `sun_path` included. -/
theorem fromPath_exact (p : Platform) (path : List UInt8) :
    ((∃ m, fromPath p path = .error ⟨.notFound, m⟩) ↔ path = []) ∧
    ((∃ m, fromPath p path = .error ⟨.invalidInput, m⟩) ↔
      path ≠ [] ∧ (maxPathLen p < path.length ∨ 0 ∈ path)) ∧
    (path ≠ [] → path.length ≤ maxPathLen p → 0 ∉ path →
      ∃ a, fromPath p path = .ok a ∧ a.asRef = some (.path path)) := by
  refine ⟨?_, ?_, fun he hl h0 => ⟨_, fromPath_eq_ok_iff.mpr ⟨he, hl, h0, rfl⟩, pathAddr_asRef hl he h0⟩⟩
  all_goals
    by_cases he : path = []
    · simp [fromPath, he]
    by_cases hl : p.capacity < path.length
    · simp [fromPath, he, hl, maxPathLen]
    by_cases h0 : 0 ∈ path <;> simp [fromPath, he, hl, h0, maxPathLen]

/-- `from_abstract` fails exactly on an oversized name where abstract addresses
exist, always where they do not, and otherwise views back as the same bytes. -/
theorem fromAbstract_exact (p : Platform) (name : List UInt8) :
    (hasAbstractAddresses p = true →
      ((∃ m, fromAbstract p name = .error ⟨.invalidInput, m⟩) ↔ maxAbstractLen p < name.length) ∧
      (name.length ≤ maxAbstractLen p →
        ∃ a, fromAbstract p name = .ok a ∧ a.asRef = some (.abstract name))) ∧
    (hasAbstractAddresses p = false →
      ∃ m, fromAbstract p name = .error ⟨.addrNotAvailable, m⟩) := by
  refine ⟨fun hA => ⟨?_, fun hl =>
    ⟨_, fromAbstract_eq_ok_iff.mpr ⟨hA, hl, rfl⟩, abstractAddr_asRef hl⟩⟩, fun hA => by
      simp [fromAbstract, hA]⟩
  by_cases hl : maxAbstractLen p < name.length <;> simp [fromAbstract, hA, hl]

/-- `from_c_str` and `from_path` agree on every non-empty content: both fail
with `InvalidInput` or both build the same `(sockaddr_un, len)` pair. -/
theorem fromCStr_agrees_fromPath (p : Platform) (cs : CStr) :
    (cs.toBytes ≠ [] →
      ((∃ m, fromCStr p cs = .error ⟨.invalidInput, m⟩) ∧
        ∃ m, fromPath p cs.toBytes = .error ⟨.invalidInput, m⟩) ∨
      ∃ a, fromCStr p cs = .ok a ∧ fromPath p cs.toBytes = .ok a) ∧
    (cs.toBytes = [] → fromCStr p cs = .ok (newUnspecified p)) := by
  refine ⟨fun he => ?_, fun he => by simp [fromCStr, he]⟩
  by_cases hl : p.capacity < cs.toBytes.length
  · exact .inl (by simp [fromCStr, fromPath, he, hl])
  · exact .inr ⟨_, fromCStr_eq_ok_iff.mpr (.inr ⟨he, by omega, rfl⟩),
      fromPath_eq_ok_iff.mpr ⟨he, by omega, cs.nul_free, rfl⟩⟩

theorem new_cons (b : UInt8) (rest : List UInt8) : new p (b :: rest) =
    if b = '@'.toUInt8 ∨ b = 0 then fromAbstract p rest else fromPath p (b :: rest) := rfl

/-- `new` accepts exactly its grammar, and what it builds compares equal to the
input bytes unless an `'@'` stood for the NUL marker. -/
theorem new_exact (p : Platform) (s : List UInt8) :
    ((∃ a, new p s = .ok a) ↔
      s = [] ∨
      ((s.head? = some '@'.toUInt8 ∨ s.head? = some 0) ∧ hasAbstractAddresses p = true ∧
        s.length - 1 ≤ maxAbstractLen p) ∨
      (s ≠ [] ∧ s.head? ≠ some '@'.toUInt8 ∧ s.head? ≠ some 0 ∧ s.length ≤ maxPathLen p ∧ 0 ∉ s)) ∧
    ∀ a, new p s = .ok a →
      a.eqBytes s = some (decide (s.head? ≠ some '@'.toUInt8)) ∧
      (s.head? = some '@'.toUInt8 → a.eqBytes (0 :: s.drop 1) = some true) := by
  have hat : '@'.toUInt8 ≠ 0 := by decide
  cases s with
  | nil => simp [new, eqBytes, newUnspecified_asRef]
  | cons b rest =>
    by_cases hb : b = '@'.toUInt8 ∨ b = 0
    · simp only [new_cons, if_pos hb, fromAbstract_eq_ok_iff]
      refine ⟨by rcases hb with rfl | rfl <;> simp [hat], ?_⟩
      rintro a ⟨-, hl, rfl⟩
      rcases hb with rfl | rfl <;>
        simp [eqBytes_eq_decide (abstractAddr_asRef hl), UnixSocketAddrRef.unescaped, hat, hat.symm]
    · simp only [new_cons, if_neg hb, fromPath_eq_ok_iff]
      obtain ⟨h1, h2⟩ := not_or.mp hb
      refine ⟨by simp [h1, h2, maxPathLen], ?_⟩
      rintro a ⟨he, hl, h0, rfl⟩
      simp [eqBytes_eq_decide (pathAddr_asRef hl he h0), UnixSocketAddrRef.unescaped, h1]

end UnixSocketAddr

end Uds
