import Uds.Equality
import Uds.Ffi

/-!
# What an address shows

`Display`, `Debug` and `Hash` for `UnixSocketAddr` all go through the view, as
`==` does. The view and the five predicates read the length and the first
`len - offset` bytes of `sun_path` only, so two addresses that agree there are
seen alike by every one of them, whatever their family and their other bytes;
nor does the one NUL a path may carry after its bytes change what they see.
-/
namespace Uds

namespace UnixSocketAddr

variable {p : Platform}

/-- `Display for UnixSocketAddr`. `lossy` is the lossy UTF-8 decoding that both
`Path::display` and `OsStr::to_string_lossy` perform. -/
def display (lossy : List UInt8 → String) (a : UnixSocketAddr p) : Option String :=
  a.asRef.map fun
    | .unnamed => "unnamed"
    | .path q => lossy q
    | .abstract name => "@" ++ lossy name

/-- `Debug for UnixSocketAddr`: a tuple `UnixSocketAddr(..)` around the view's
variant. `escape` is the `Debug` of `OsStr`, which the `Debug` of `Path` uses. -/
def debug (escape : List UInt8 → String) (a : UnixSocketAddr p) : Option String :=
  a.asRef.map fun r => "UnixSocketAddr(" ++ (match r with
    | .unnamed => "\"Unnamed\""
    | .path q => "Path(" ++ escape q ++ ")"
    | .abstract name => "Abstract(" ++ escape name ++ ")") ++ ")"

/-- `Hash for UnixSocketAddr`: `self.as_ref().hash(hasher)`, with the view's
derived `Hash` given as `hashRef` on the hasher's state. -/
def hash {H : Type} (hashRef : UnixSocketAddrRef → H → H) (a : UnixSocketAddr p) (state : H) :
    Option H :=
  a.asRef.map fun r => hashRef r state

/-- Bytes past the used length are unobservable: two addresses of one length
within the bound that agree on the used bytes of `sun_path` have the same view,
compare equal, hash, display and debug-print alike, and get the same answer from
each of the five predicates. -/
theorem unusedBytes_unobservable {a b : UnixSocketAddr p} (hl : a.len = b.len) (hw : a.WellFormed)
    (hs : ∀ i < a.len - p.pathOffset, a.addr.pathAt i = b.addr.pathAt i) :
    a.asRef = b.asRef ∧ a.eq b = some true ∧
    (∀ {H : Type} (hashRef : UnixSocketAddrRef → H → H) (state : H),
      a.hash hashRef state = b.hash hashRef state) ∧
    (∀ lossy, a.display lossy = b.display lossy) ∧ (∀ escape, a.debug escape = b.debug escape) ∧
    a.isUnnamed = b.isUnnamed ∧ a.isAbstract = b.isAbstract ∧ a.isPath = b.isPath ∧
    a.isAbsolutePath = b.isAbsolutePath ∧ a.isRelativePath = b.isRelativePath := by
  have hr := asRef_congr hl hs
  obtain ⟨x, hx⟩ := Option.isSome_iff_exists.mp (asRef_isSome hw)
  exact ⟨hr, by rw [eq_of_asRef hx (hr ▸ hx), UnixSocketAddrRef.eq_self],
    fun _ _ => by rw [hash, hr, hash], fun _ => by rw [display, hr, display],
    fun _ => by rw [debug, hr, debug], classify_congr hl fun h => hs 0 (by omega)⟩

theorem unusedBytes_unobservable_linux :
    ∃ a b : UnixSocketAddr Platform.linux, a.addr ≠ b.addr ∧ a.len = b.len ∧ a.WellFormed ∧
      (∀ i < a.len - Platform.linux.pathOffset, a.addr.pathAt i = b.addr.pathAt i) ∧
      a.asRef = b.asRef ∧ a.eq b = some true ∧
      (∀ {H : Type} (hashRef : UnixSocketAddrRef → H → H) (state : H),
        a.hash hashRef state = b.hash hashRef state) ∧
      (∀ lossy, a.display lossy = b.display lossy) ∧ (∀ escape, a.debug escape = b.debug escape) ∧
      a.isUnnamed = b.isUnnamed ∧ a.isAbstract = b.isAbstract ∧ a.isPath = b.isPath ∧
      a.isAbsolutePath = b.isAbsolutePath ∧ a.isRelativePath = b.isRelativePath :=
  ⟨pathAddr Platform.linux ['a'.toUInt8],
    ⟨{ (pathAddr Platform.linux ['a'.toUInt8]).addr.setPath 5 9 with sunFamily := 7 }, 4⟩,
    by decide, rfl, by decide, by decide, unusedBytes_unobservable rfl (by decide) (by decide)⟩

/-- The one optional NUL after a path is unobservable: a path address whose last
used byte is not NUL, and an address one byte longer with the same used bytes
followed by a NUL, have the same view, compare equal, hash, display and
debug-print alike, and get the same answer from each of the five predicates. -/
theorem trailingNul_unobservable {a b : UnixSocketAddr p} (hp : a.isPath = true) (hs : a.len < p.size)
    (hl : a.addr.pathAt (a.len - 1 - p.pathOffset) ≠ 0) (hbl : b.len = a.len + 1)
    (hbs : ∀ i < a.len - p.pathOffset, b.addr.pathAt i = a.addr.pathAt i)
    (hb0 : b.addr.pathAt (a.len - p.pathOffset) = 0) :
    b.asRef = a.asRef ∧ b.eq a = some true ∧
    (∀ {H : Type} (hashRef : UnixSocketAddrRef → H → H) (state : H),
      b.hash hashRef state = a.hash hashRef state) ∧
    (∀ lossy, b.display lossy = a.display lossy) ∧ (∀ escape, b.debug escape = a.debug escape) ∧
    b.isUnnamed = a.isUnnamed ∧ b.isAbstract = a.isAbstract ∧ b.isPath = a.isPath ∧
    b.isAbsolutePath = a.isAbsolutePath ∧ b.isRelativePath = a.isRelativePath := by
  obtain ⟨ho, h0⟩ := isPath_iff.mp hp
  have hc := p.capacity_pos
  simp only [Platform.size] at hs
  -- `b` agrees on its used bytes with `a` after the normalizer's NUL write
  have hn : b.asRef = (⟨a.addr.setPath (a.len - p.pathOffset) 0, a.len + 1⟩ : UnixSocketAddr p).asRef := by
    refine asRef_congr hbl fun i hi => ?_
    rcases Nat.lt_or_ge i (a.len - p.pathOffset) with hi' | hi'
    · rw [hbs i hi', SockaddrUn.pathAt_setPath_ne _ (by omega)]
    · obtain rfl : i = a.len - p.pathOffset := by omega
      rw [hb0, SockaddrUn.pathAt_setPath_self _ (by omega)]
  have hr : b.asRef = a.asRef := hn.trans (asRef_setPath_nul ho (by simpa only [Platform.size]) h0 hl)
  obtain ⟨x, hx⟩ := Option.isSome_iff_exists.mp
    (asRef_isSome (show a.WellFormed by simp only [WellFormed, Platform.size]; omega))
  exact ⟨hr, by rw [eq_of_asRef (hr ▸ hx) hx, UnixSocketAddrRef.eq_self],
    fun _ _ => by rw [hash, hr, hash], fun _ => by rw [display, hr, display],
    fun _ => by rw [debug, hr, debug],
    classify_congr_of_lt (by omega) ho (by rw [hbs 0 (by omega)])⟩

theorem trailingNul_unobservable_linux :
    (⟨(pathAddr Platform.linux [47, 97]).addr, 4⟩ : UnixSocketAddr Platform.linux).isPath = true ∧
    (⟨(pathAddr Platform.linux [47, 97]).addr, 4⟩ : UnixSocketAddr Platform.linux).asRef =
      (pathAddr Platform.linux [47, 97]).asRef :=
  have h := @trailingNul_unobservable Platform.linux ⟨(pathAddr Platform.linux [47, 97]).addr, 4⟩
    (pathAddr Platform.linux [47, 97]) rfl (by decide) (by decide) rfl (by decide) (by decide)
  ⟨rfl, h.1.symm⟩

end UnixSocketAddr

end Uds
