import Uds.Ffi

/-!
# Addresses the safe constructors return

`Constructed p a` holds of every address a safe constructor returns in `Ok`:
`new_unspecified`, `new`, `from_path`, `from_abstract`, `from_c_str`, and
`new_from_ffi` for any call. Each of them returns a canonical address, so echoing
one back through `new_from_ffi` changes nothing. On a target with abstract
addresses every one of them is within the bound documented on `len`; on a target
without, `new_from_ffi` lets through a zero-led address of any length.
-/
namespace Uds

namespace UnixSocketAddr

variable {p : Platform}

/-- The addresses the safe constructors return. -/
inductive Constructed (p : Platform) : UnixSocketAddr p → Prop
  | newUnspecified : Constructed p (newUnspecified p)
  | new {s : List UInt8} {a} : new p s = .ok a → Constructed p a
  | fromPath {path : List UInt8} {a} : fromPath p path = .ok a → Constructed p a
  | fromAbstract {name : List UInt8} {a} : fromAbstract p name = .ok a → Constructed p a
  | fromCStr {cs : CStr} {a} : fromCStr p cs = .ok a → Constructed p a
  | newFromFfi {R : Type} {call : SockaddrUn p → ℕ → Except IoError (R × SockaddrUn p × ℕ)} {r : R} {a} :
      newFromFfi p call = .ok (r, a) → Constructed p a

theorem newUnspecified_canonical (p : Platform) : (newUnspecified p).Canonical := by
  have := p.familySize_le
  refine ⟨rfl, fun h => ?_, fun h => ?_, fun h => ?_⟩ <;>
    simp only [isAbstract_iff, isPath_iff, newUnspecified] at h <;> omega

theorem pathAddr_canonical {path : List UInt8} (h : path.length ≤ p.capacity) :
    (pathAddr p path).Canonical := by
  have hw := pathAddr_wellFormed h
  refine ⟨rfl, fun _ => hw, fun _ => hw, fun _ hl => ?_⟩
  simp only [Platform.size, pathAddr_len] at hl
  split at hl
  · simp [SockaddrUn.pathAt, pathAddr_sunPath h, pathAddr_len, *, List.getElem_append_right]
  · omega

theorem abstractAddr_canonical {name : List UInt8} (h : name.length ≤ maxAbstractLen p) :
    (abstractAddr p name).Canonical := by
  have hw := abstractAddr_wellFormed h
  refine ⟨rfl, fun _ => hw, fun _ => hw, fun hp => ?_⟩
  simp [isPath_iff, abstractAddr_pathAt_zero h] at hp

theorem new_canonical {s : List UInt8} {a : UnixSocketAddr p} (h : new p s = .ok a) : a.Canonical := by
  cases s with
  | nil => cases h; exact newUnspecified_canonical p
  | cons b rest =>
    rw [new_cons] at h
    split at h
    · obtain ⟨-, hl, rfl⟩ := fromAbstract_eq_ok_iff.mp h
      exact abstractAddr_canonical hl
    · obtain ⟨-, hl, -, rfl⟩ := fromPath_eq_ok_iff.mp h
      exact pathAddr_canonical hl

theorem Constructed.canonical {a : UnixSocketAddr p} (h : Constructed p a) : a.Canonical := by
  cases h with
  | newUnspecified => exact newUnspecified_canonical p
  | new h => exact new_canonical h
  | fromPath h =>
    obtain ⟨-, hl, -, rfl⟩ := fromPath_eq_ok_iff.mp h
    exact pathAddr_canonical hl
  | fromAbstract h =>
    obtain ⟨-, hl, rfl⟩ := fromAbstract_eq_ok_iff.mp h
    exact abstractAddr_canonical hl
  | fromCStr h =>
    obtain ⟨-, rfl⟩ | ⟨-, hl, rfl⟩ := fromCStr_eq_ok_iff.mp h
    · exact newUnspecified_canonical p
    · exact pathAddr_canonical hl
  | newFromFfi h =>
    obtain ⟨_, _, -, hn⟩ := newFromFfi_eq_ok_iff.mp h
    exact canonical_of_normalizeFfi hn

/-- Echoing a constructed address through `new_from_ffi` returns it unchanged:
the constructors already build the normalizer's canonical form, and the
normalizer's own output is a fixed point. -/
theorem newFromFfi_fixes_constructed {a : UnixSocketAddr p} (h : Constructed p a) {R : Type} (r : R) :
    newFromFfi p (fun _ _ => .ok (r, a.addr, a.len)) = .ok (r, a) :=
  newFromFfi_eq_ok_iff.mpr ⟨a.addr, a.len, rfl, normalizeFfi_of_canonical h.canonical⟩

theorem newFromFfi_fixes_fullPath_linux :
    newFromFfi Platform.linux (fun _ _ => .ok ((), (pathAddr Platform.linux (List.replicate 108 97)).addr,
        (pathAddr Platform.linux (List.replicate 108 97)).len)) =
      .ok ((), pathAddr Platform.linux (List.replicate 108 97)) :=
  newFromFfi_fixes_constructed
    (.fromPath (fromPath_eq_ok_iff.mpr ⟨by simp, by simp [Platform.linux], by simp, rfl⟩)) ()

/-- Kernels differ in whether the length they report for a path counts its
terminating NUL, and for a path that fills `sun_path` a kernel may count the NUL
there was no room for. Whichever of these a call reports for the bytes
`from_path` built, `new_from_ffi` returns exactly the address `from_path` built. -/
theorem newFromFfi_fromPath_nulConventions {path : List UInt8} {a : UnixSocketAddr p}
    (h : fromPath p path = .ok a) {len : ℕ} (h1 : p.pathOffset + path.length ≤ len)
    (h2 : len ≤ p.pathOffset + path.length + 1) {R : Type} (r : R) :
    newFromFfi p (fun _ _ => .ok (r, a.addr, len)) = .ok (r, a) := by
  obtain ⟨hne, hl, h0, rfl⟩ := fromPath_eq_ok_iff.mp h
  have hpos := List.length_pos.mpr hne
  have hnz : ∀ i < path.length, (pathAddr p path).addr.pathAt i ≠ 0 := fun i hi he =>
    h0 (by rw [pathAddr_pathAt hl, List.getD_eq_getElem _ _ hi] at he; exact he ▸ List.getElem_mem hi)
  have hp : (⟨(pathAddr p path).addr, len⟩ : UnixSocketAddr p).isPath = true :=
    isPath_iff.mpr ⟨show p.pathOffset < len by omega, hnz 0 hpos⟩
  refine newFromFfi_eq_ok_iff.mpr ⟨_, _, rfl, ?_⟩
  rw [normalizeFfi_of_isPath rfl hp]
  dsimp only
  rw [if_neg (by simp only [Platform.size]; omega)]
  by_cases hs : len ≥ p.size
  · rw [if_pos hs, show p.size = (pathAddr p path).len by
      simp only [Platform.size, pathAddr_len] at hs ⊢; split <;> omega]
  · have hc : path.length < p.capacity := by simp only [Platform.size] at hs; omega
    have hlen : (pathAddr p path).len = p.pathOffset + path.length + 1 := by
      rw [pathAddr_len, if_pos hc]
    have hend : (pathAddr p path).addr.pathAt path.length = 0 := by
      rw [pathAddr_pathAt hl, List.getD_eq_default _ _ le_rfl]
    rw [if_neg hs]
    rcases Nat.lt_or_ge len (p.pathOffset + path.length + 1) with hlt | hge
    · -- the NUL is not counted: the normalizer writes it back where it already is
      obtain rfl : len = p.pathOffset + path.length := by omega
      rw [if_pos (hnz _ (by omega)), Nat.add_sub_cancel_left, SockaddrUn.setPath_eq_self hend hc,
        ← hlen]
    · -- the NUL is counted: the address is already in the normalizer's form
      obtain rfl : len = p.pathOffset + path.length + 1 := by omega
      rw [show p.pathOffset + path.length + 1 - 1 - p.pathOffset = path.length by omega,
        if_neg (not_not.mpr hend), ← hlen]

theorem newFromFfi_fromPath_unterminated_linux :
    fromPath Platform.linux [47, 97] = .ok (pathAddr Platform.linux [47, 97]) ∧
    Platform.linux.pathOffset + [47, 97].length ≤ 4 ∧ 4 ≤ Platform.linux.pathOffset + [47, 97].length + 1 ∧
    newFromFfi Platform.linux (fun _ _ => .ok ((), (pathAddr Platform.linux [47, 97]).addr, 4)) =
      .ok ((), pathAddr Platform.linux [47, 97]) :=
  ⟨rfl, by decide, by decide,
    @newFromFfi_fromPath_nulConventions Platform.linux [47, 97] _ rfl 4 (by decide) (by decide) _ ()⟩

/-- A canonical address is within the documented bound, except a zero-led one
on a target without abstract addresses, which neither length check looks at. -/
theorem Canonical.wellFormed_or {a : UnixSocketAddr p} (h : a.Canonical) :
    a.WellFormed ∨ (hasAbstractAddresses p = false ∧ p.size < a.len ∧ a.addr.pathAt 0 = 0) := by
  by_cases hw : a.WellFormed
  · exact .inl hw
  have hc := p.capacity_pos
  have hp : ¬a.isPath = true := fun hp => hw (h.path_le hp)
  have ha : ¬a.isAbstract = true := fun ha => hw (h.abstract_le ha)
  simp only [isPath_iff, isAbstract_iff, WellFormed, Platform.size, not_and, not_not, not_le] at hp ha hw
  refine .inr ⟨?_, by simp only [Platform.size]; omega, hp (by omega)⟩
  cases hA : hasAbstractAddresses p
  · rfl
  · exact absurd (hp (by omega)) (ha hA (by omega))

theorem Constructed.wellFormed {a : UnixSocketAddr p} (h : Constructed p a)
    (hA : hasAbstractAddresses p = true) : a.WellFormed :=
  h.canonical.wellFormed_or.resolve_right (by simp [hA])

theorem newFromFfi_clamped_linux_wellFormed :
    (⟨(pathAddr Platform.linux (List.replicate 108 97)).addr, 110⟩ : UnixSocketAddr Platform.linux).WellFormed :=
  Constructed.wellFormed (@Constructed.newFromFfi Platform.linux Unit
    (fun _ _ => .ok ((), (pathAddr Platform.linux (List.replicate 108 97)).addr, 111)) () _ rfl) rfl

/-- On macOS the zeroed buffer reported one byte longer than `sockaddr_un` is a
constructed address past the bound, whose view panics. -/
theorem newFromFfi_macos_exceeds_bound :
    Constructed Platform.macos ⟨(newUnspecified Platform.macos).addr, 107⟩ ∧
    ¬(⟨(newUnspecified Platform.macos).addr, 107⟩ : UnixSocketAddr Platform.macos).WellFormed ∧
    (⟨(newUnspecified Platform.macos).addr, 107⟩ : UnixSocketAddr Platform.macos).asRef = none :=
  ⟨.newFromFfi newFromFfi_macos_zeroed_overlong, by decide, rfl⟩

/-- macOS reports an unnamed socket as a zeroed `sun_path` under a non-empty
length. `is_unnamed` has a case for it; `as_ref` has none and views it as an
abstract name, on a target without abstract addresses. -/
theorem newFromFfi_macos_unnamed_views_abstract :
    newFromFfi Platform.macos (fun _ _ => .ok ((), (newUnspecified Platform.macos).addr, 16)) =
      .ok ((), ⟨(newUnspecified Platform.macos).addr, 16⟩) ∧
    (⟨(newUnspecified Platform.macos).addr, 16⟩ : UnixSocketAddr Platform.macos).WellFormed ∧
    (⟨(newUnspecified Platform.macos).addr, 16⟩ : UnixSocketAddr Platform.macos).isUnnamed = true ∧
    (⟨(newUnspecified Platform.macos).addr, 16⟩ : UnixSocketAddr Platform.macos).asRef =
      some (.abstract (List.replicate 13 0)) :=
  ⟨rfl, by decide, rfl, rfl⟩

end UnixSocketAddr

end Uds
