import Uds.Constructors

/-!
# Equality of addresses

`==` on `UnixSocketAddr` compares the two views with the derived `PartialEq` of
`UnixSocketAddrRef`, whose `Path` payload is a `&Path`: two paths are equal when
their components are, so bytes that `Path::components` drops (a repeated or
trailing `/`, a `.` after the first part) do not count. `PartialEq<[u8]>`
compares a path's bytes. The two agree on unnamed and abstract addresses only.
-/
namespace Uds

theorem UnixSocketAddrRef.eq_eq_true_iff {x y : UnixSocketAddrRef} :
    x.eq y = true ↔
      (x = .unnamed ∧ y = .unnamed) ∨ (∃ n, x = .abstract n ∧ y = .abstract n) ∨
        ∃ u v, x = .path u ∧ y = .path v ∧ Path.components u = Path.components v := by
  cases x <;> cases y <;> simp [UnixSocketAddrRef.eq, Path.eq]
  exact eq_comm

theorem UnixSocketAddrRef.eq_self (x : UnixSocketAddrRef) : x.eq x = true := by
  cases x <;> simp [UnixSocketAddrRef.eq, Path.eq]

/-- The views `new` reads back from their unescaped bytes: a path must neither
start with `'@'` nor hold a NUL, and an abstract name needs a target with them. -/
def UnixSocketAddrRef.Reparsable (p : Platform) : UnixSocketAddrRef → Prop
  | .unnamed => True
  | .path q => q.head? ≠ some '@'.toUInt8 ∧ 0 ∉ q
  | .abstract _ => UnixSocketAddr.hasAbstractAddresses p = true

instance (p : Platform) : (r : UnixSocketAddrRef) → Decidable (r.Reparsable p)
  | .unnamed => inferInstanceAs (Decidable True)
  | .path q => inferInstanceAs (Decidable (q.head? ≠ some '@'.toUInt8 ∧ 0 ∉ q))
  | .abstract _ => inferInstanceAs (Decidable (UnixSocketAddr.hasAbstractAddresses p = true))

namespace UnixSocketAddr

variable {p : Platform}

/-- `new` parses the unescaped form of a view back to that view. -/
theorem new_unescaped {a : UnixSocketAddr p} {r : UnixSocketAddrRef} (h : a.asRef = some r)
    (hr : r.Reparsable p) : ∃ b, new p r.unescaped = .ok b ∧ b.asRef = some r := by
  cases r with
  | unnamed => exact ⟨_, rfl, newUnspecified_asRef p⟩
  | path q =>
    obtain ⟨hw, hne, h0, hl⟩ := asRef_eq_path h
    obtain ⟨b, rest, rfl⟩ := List.exists_cons_of_ne_nil hne
    simp only [WellFormed, Platform.size] at hw
    have hb : ¬(b = '@'.toUInt8 ∨ b = 0) := by simpa using And.intro hr.1 h0
    exact ⟨_, by rw [UnixSocketAddrRef.unescaped, new_cons, if_neg hb,
      fromPath_eq_ok_iff.mpr ⟨hne, by omega, hr.2, rfl⟩], pathAddr_asRef (by omega) hne hr.2⟩
  | abstract n =>
    obtain ⟨hw, hl, hn⟩ := asRef_eq_abstract h
    simp only [WellFormed, Platform.size] at hw
    have hm : n.length ≤ maxAbstractLen p := by simp only [maxAbstractLen]; omega
    exact ⟨_, by rw [UnixSocketAddrRef.unescaped, new_cons, if_pos (.inr rfl),
      fromAbstract_eq_ok_iff.mpr ⟨hr, hm, rfl⟩], abstractAddr_asRef hm⟩

theorem new_unescaped_path_linux :
    (pathAddr Platform.linux ['a'.toUInt8]).asRef = some (.path ['a'.toUInt8]) ∧
    (UnixSocketAddrRef.path ['a'.toUInt8]).Reparsable Platform.linux ∧
    ∃ b, new Platform.linux (UnixSocketAddrRef.path ['a'.toUInt8]).unescaped = .ok b ∧
      b.asRef = some (.path ['a'.toUInt8]) :=
  ⟨rfl, by decide, @new_unescaped Platform.linux (pathAddr Platform.linux ['a'.toUInt8]) _ rfl (by decide)⟩

theorem eq_of_asRef {a b : UnixSocketAddr p} {x y : UnixSocketAddrRef} (ha : a.asRef = some x)
    (hb : b.asRef = some y) : a.eq b = some (x.eq y) := by
  simp [eq, ha, hb]

/-- Equality of addresses is equality of kinds, with abstract names compared
byte for byte and paths compared by their components; it agrees with the
comparison against bytes on every address that is not a path; and two accepted
paths give equal addresses exactly when their components are equal. -/
theorem eq_iff_sameComponents (a b : UnixSocketAddr p) :
    (a.eq b = some true ↔
      (a.asRef = some .unnamed ∧ b.asRef = some .unnamed) ∨
      (∃ n, a.asRef = some (.abstract n) ∧ b.asRef = some (.abstract n)) ∨
      ∃ u v, a.asRef = some (.path u) ∧ b.asRef = some (.path v) ∧
        Path.components u = Path.components v) ∧
    (a.eq b = some true → a.isPath = false → ∀ s, a.eqBytes s = b.eqBytes s) ∧
    ∀ u v, u ≠ [] → v ≠ [] → u.length ≤ maxPathLen p → v.length ≤ maxPathLen p → 0 ∉ u → 0 ∉ v →
      ∃ c d, fromPath p u = .ok c ∧ fromPath p v = .ok d ∧
        (c.eq d = some true ↔ Path.components u = Path.components v) := by
  refine ⟨?_, fun he hp s => ?_, fun u v hu hv hlu hlv h0u h0v => ⟨_, _,
    fromPath_eq_ok_iff.mpr ⟨hu, hlu, h0u, rfl⟩, fromPath_eq_ok_iff.mpr ⟨hv, hlv, h0v, rfl⟩, ?_⟩⟩
  · rcases hx : a.asRef with _ | x <;> rcases hy : b.asRef with _ | y <;>
      simp [eq, hx, hy, UnixSocketAddrRef.eq_eq_true_iff]
  · rcases hx : a.asRef with _ | x <;> rcases hy : b.asRef with _ | y <;> simp [eq, hx, hy] at he
    have hxy : x = y := by
      rw [UnixSocketAddrRef.eq_eq_true_iff] at he
      rcases he with ⟨rfl, rfl⟩ | ⟨n, rfl, rfl⟩ | ⟨u, v, rfl, -, -⟩
      · rfl
      · rfl
      · have hw : a.WellFormed := wellFormed_of_asRef hx (by simp)
        exact absurd ((isPath_iff_asRef hw).mpr ⟨u, hx⟩) (by simp [hp])
    rw [eqBytes_eq_decide hx, eqBytes_eq_decide hy, hxy]
  · rw [eq_of_asRef (pathAddr_asRef hlu hu h0u) (pathAddr_asRef hlv hv h0v)]
    simp [UnixSocketAddrRef.eq, Path.eq]

/-- `"a"` and `"a/"` are distinct valid paths whose addresses are equal, yet
only the first compares equal to the bytes `"a"`. -/
theorem fromPath_trailing_slash_eq :
    ∃ a b, fromPath Platform.linux ['a'.toUInt8] = .ok a ∧
      fromPath Platform.linux ['a'.toUInt8, '/'.toUInt8] = .ok b ∧
      a.eq b = some true ∧ a.eqBytes ['a'.toUInt8] = some true ∧
      b.eqBytes ['a'.toUInt8] = some false :=
  ⟨_, _, rfl, rfl, rfl, rfl, rfl⟩

end UnixSocketAddr

end Uds
