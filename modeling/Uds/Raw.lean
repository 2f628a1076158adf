import Uds.View

/-!
# Raw interop

`from_raw` reads a `sockaddr` through a pointer. The memory it points to is a
`RawRegion`: the `sa_family` field the source reads, and the bytes from the
offset of `sun_path` on, as many as are readable. The copy into `sun_path` is
`copy_from_slice` from a slice of `len` bytes, which panics unless `len` is the
size of `sun_path`.
-/
namespace Uds

/-- The memory a non-null `*const sockaddr` points to. -/
structure RawRegion where
  family : ℕ
  pathBytes : List UInt8

/-- `slice::from_raw_parts(sun_path_ptr, n)` as read by a copy; `none` where
the read leaves the region. -/
def RawRegion.slice (m : RawRegion) (n : ℕ) : Option (List UInt8) :=
  if n ≤ m.pathBytes.length then some (m.pathBytes.take n) else none

namespace SockaddrUn

variable {p : Platform}

/-- `sun_path.copy_from_slice(src)`; `none` where the lengths differ and it panics. -/
def copyFromSlice (a : SockaddrUn p) (src : List UInt8) : Option (SockaddrUn p) :=
  if h : src.length = p.capacity then some ⟨a.sunFamily, src, h⟩ else none

end SockaddrUn

namespace UnixSocketAddr

variable {p : Platform}

/-- `from_raw`, with a null pointer as `none`. The result is `none` where the
source panics or reads outside the region. Only `sun_path` is copied into the
zeroed `new_unspecified` buffer, so on BSD and macOS the result's `sun_len` is 0
whatever the region held; `SockaddrUn` has no `sun_len`, and no function here
reads it. -/
def fromRaw (p : Platform) (addr : Option RawRegion) (len : ℕ) :
    Option (Except IoError (UnixSocketAddr p)) :=
  let copy := newUnspecified p
  match addr with
  | none =>
    if len = 0 then some (.ok (newUnspecified p))
    else some (.error ⟨.invalidInput, "addr is NULL"⟩)
  | some m =>
    if len < p.pathOffset then some (.error ⟨.invalidInput, "address length is too low"⟩)
    else if len > p.pathOffset + p.capacity then some (.error ⟨.invalidInput, "address is too long"⟩)
    else if m.family ≠ afUnix then some (.error ⟨.invalidData, "not an unix socket address"⟩)
    else (m.slice len).bind fun src => (copy.addr.copyFromSlice src).map fun sa => .ok ⟨sa, len⟩

/-- `from_raw_unchecked`: the buffer and length as given, unchecked. -/
def fromRawUnchecked (addr : SockaddrUn p) (len : ℕ) : UnixSocketAddr p := ⟨addr, len⟩

/-- `into_raw` and `as_raw`: the buffer and its length. The source's buffer also
holds `sun_len` on BSD and macOS, which this model leaves out. -/
def intoRaw (a : UnixSocketAddr p) : SockaddrUn p × ℕ := (a.addr, a.len)

/-- `as_raw_general`: the address's own memory, which ends with `sun_path`. -/
def asRawGeneral (a : UnixSocketAddr p) : RawRegion × ℕ :=
  (⟨a.addr.sunFamily, a.addr.sunPath⟩, a.len)

/-- Every length the checks accept other than the size of `sun_path` panics in
`copy_from_slice`, whatever the region holds. -/
theorem fromRaw_panics {m : RawRegion} {len : ℕ} (h1 : p.pathOffset ≤ len) (h2 : len ≤ p.size)
    (hf : m.family = afUnix) (hc : len ≠ p.capacity) : fromRaw p (some m) len = none := by
  simp only [Platform.size] at h2
  simp only [fromRaw, if_neg (Nat.not_lt.mpr h1), if_neg (Nat.not_lt.mpr h2), hf, ne_eq,
    not_true_eq_false, if_false, RawRegion.slice]
  split
  · simp [SockaddrUn.copyFromSlice, Option.bind]; omega
  · rfl

/-- The unnamed address handed back through its own raw parts on Linux: within
every documented precondition, yet `from_raw` panics. -/
theorem fromRaw_linux_newUnspecified_panics :
    (newUnspecified Platform.linux).asRawGeneral.2 ≤
      Platform.linux.pathOffset + (newUnspecified Platform.linux).asRawGeneral.1.pathBytes.length ∧
    (newUnspecified Platform.linux).asRawGeneral.1.family = afUnix ∧
    Platform.linux.pathOffset ≤ (newUnspecified Platform.linux).asRawGeneral.2 ∧
    (newUnspecified Platform.linux).asRawGeneral.2 ≤ Platform.linux.size ∧
    fromRaw Platform.linux (some (newUnspecified Platform.linux).asRawGeneral.1)
      (newUnspecified Platform.linux).asRawGeneral.2 = none :=
  ⟨by decide, rfl, by decide, by decide, fromRaw_panics (by decide) (by decide) rfl (by decide)⟩

end UnixSocketAddr

end Uds
