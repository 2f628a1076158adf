import Uds.Constructors

/-!
# The FFI round-trip normalizer

`new_from_ffi` lends a `new_unspecified()` buffer, its length set to the
capacity, to a kernel call, then checks and normalizes what the call left. The
call is any function of the buffer it is lent; its result is the value it
returns with the buffer and length it leaves, or its error. The checks after the
call are `normalizeFfi`, and `Canonical` is the form it leaves an address in:
every address it accepts comes out canonical, and a canonical address passes
through unchanged.
-/
namespace Uds

namespace UnixSocketAddr

variable {p : Platform}

/-- The part of `new_from_ffi` after the call: the family check, the truncation
checks, and the trailing NUL added to a path when there is room. -/
def normalizeFfi (addr : UnixSocketAddr p) : Except IoError (UnixSocketAddr p) :=
  if addr.addr.sunFamily ≠ afUnix then
    .error ⟨.invalidData, "file descriptor did not correspond to a Unix socket"⟩
  else if addr.isAbstract then
    if addr.len > p.size then .error ⟨.invalidData, "abstract name was too long"⟩
    else .ok addr
  else if addr.isPath then
    if addr.len > p.size + 1 then .error ⟨.invalidData, "path was too long"⟩
    else if addr.len ≥ p.size then .ok ⟨addr.addr, p.size⟩
    else if addr.addr.pathAt (addr.len - 1 - p.pathOffset) ≠ 0 then
      let len := addr.len + 1
      .ok ⟨addr.addr.setPath (len - 1 - p.pathOffset) 0, len⟩
    else .ok addr
  else .ok addr

/-- `new_from_ffi`. -/
def newFromFfi {R : Type} (p : Platform)
    (call : SockaddrUn p → ℕ → Except IoError (R × SockaddrUn p × ℕ)) :
    Except IoError (R × UnixSocketAddr p) := do
  let addr := newUnspecified p
  let (ret, sa, len) ← call addr.addr p.size
  let addr ← normalizeFfi ⟨sa, len⟩
  pure (ret, addr)

theorem newFromFfi_eq_ok_iff {R : Type} {call : SockaddrUn p → ℕ → Except IoError (R × SockaddrUn p × ℕ)}
    {r : R} {a : UnixSocketAddr p} :
    newFromFfi p call = .ok (r, a) ↔
      ∃ sa len, call (newUnspecified p).addr p.size = .ok (r, sa, len) ∧
        normalizeFfi ⟨sa, len⟩ = .ok a := by
  simp only [newFromFfi]
  rcases call (newUnspecified p).addr p.size with e | ⟨r', sa, len⟩
  · simp [bind, Except.bind]
  · rcases h : normalizeFfi ⟨sa, len⟩ with e | b
    · simp [bind, Except.bind, h]
    · simp only [bind, Except.bind, pure, Except.pure, h, Except.ok.injEq, Prod.mk.injEq]
      constructor
      · rintro ⟨rfl, rfl⟩; exact ⟨sa, len, ⟨rfl, rfl, rfl⟩, h⟩
      · rintro ⟨_, _, ⟨rfl, rfl, rfl⟩, h'⟩
        exact ⟨rfl, Except.ok.inj (h.symm.trans h')⟩

/-- The eight outcomes of the normalizer, one per branch of the source. -/
theorem normalizeFfi_cases (a : UnixSocketAddr p) :
    (a.addr.sunFamily ≠ afUnix ∧
      a.normalizeFfi = .error ⟨.invalidData, "file descriptor did not correspond to a Unix socket"⟩) ∨
    (a.addr.sunFamily = afUnix ∧ a.isAbstract = true ∧ p.size < a.len ∧
      a.normalizeFfi = .error ⟨.invalidData, "abstract name was too long"⟩) ∨
    (a.addr.sunFamily = afUnix ∧ a.isAbstract = true ∧ a.len ≤ p.size ∧ a.normalizeFfi = .ok a) ∨
    (a.addr.sunFamily = afUnix ∧ a.isAbstract = false ∧ a.isPath = true ∧ p.size + 1 < a.len ∧
      a.normalizeFfi = .error ⟨.invalidData, "path was too long"⟩) ∨
    (a.addr.sunFamily = afUnix ∧ a.isAbstract = false ∧ a.isPath = true ∧ p.size ≤ a.len ∧
      a.len ≤ p.size + 1 ∧ a.normalizeFfi = .ok ⟨a.addr, p.size⟩) ∨
    (a.addr.sunFamily = afUnix ∧ a.isAbstract = false ∧ a.isPath = true ∧ a.len < p.size ∧
      a.addr.pathAt (a.len - 1 - p.pathOffset) ≠ 0 ∧
      a.normalizeFfi = .ok ⟨a.addr.setPath (a.len - p.pathOffset) 0, a.len + 1⟩) ∨
    (a.addr.sunFamily = afUnix ∧ a.isAbstract = false ∧ a.isPath = true ∧ a.len < p.size ∧
      a.addr.pathAt (a.len - 1 - p.pathOffset) = 0 ∧ a.normalizeFfi = .ok a) ∨
    (a.addr.sunFamily = afUnix ∧ a.isAbstract = false ∧ a.isPath = false ∧ a.normalizeFfi = .ok a) := by
  unfold normalizeFfi
  by_cases hf : a.addr.sunFamily = afUnix
  swap
  · exact .inl ⟨hf, if_pos hf⟩
  rw [if_neg (not_not.mpr hf)]
  cases ha : a.isAbstract
  · rw [if_neg Bool.false_ne_true]
    cases hp : a.isPath
    · exact .inr (.inr (.inr (.inr (.inr (.inr (.inr ⟨hf, rfl, rfl, if_neg Bool.false_ne_true⟩))))))
    rw [if_pos rfl]
    by_cases h1 : a.len > p.size + 1
    · exact .inr (.inr (.inr (.inl ⟨hf, rfl, rfl, h1, if_pos h1⟩)))
    rw [if_neg h1]
    by_cases h2 : a.len ≥ p.size
    · exact .inr (.inr (.inr (.inr (.inl ⟨hf, rfl, rfl, h2, by omega, if_pos h2⟩))))
    rw [if_neg h2]
    by_cases h3 : a.addr.pathAt (a.len - 1 - p.pathOffset) ≠ 0
    · exact .inr (.inr (.inr (.inr (.inr (.inl ⟨hf, rfl, rfl, by omega, h3, by
        simp only [if_pos h3, Nat.add_sub_cancel]⟩)))))
    · exact .inr (.inr (.inr (.inr (.inr (.inr (.inl ⟨hf, rfl, rfl, by omega, not_not.mp h3,
        if_neg h3⟩))))))
  · rw [if_pos rfl]
    by_cases h1 : a.len > p.size
    · exact .inr (.inl ⟨hf, rfl, h1, if_pos h1⟩)
    · exact .inr (.inr (.inl ⟨hf, rfl, by omega, if_neg h1⟩))

/-- The normalizer on a path of the Unix family: the truncation check, the
clamp, and the NUL added after a path that lacks one. -/
theorem normalizeFfi_of_isPath {a : UnixSocketAddr p} (hf : a.addr.sunFamily = afUnix)
    (hp : a.isPath = true) :
    a.normalizeFfi =
      if a.len > p.size + 1 then .error ⟨.invalidData, "path was too long"⟩
      else if a.len ≥ p.size then .ok ⟨a.addr, p.size⟩
      else if a.addr.pathAt (a.len - 1 - p.pathOffset) ≠ 0 then
        .ok ⟨a.addr.setPath (a.len - p.pathOffset) 0, a.len + 1⟩
      else .ok a := by
  have ha : a.isAbstract = false := by
    cases h : a.isAbstract
    · rfl
    · simp [isPath_eq_false_of_isAbstract h] at hp
  rw [normalizeFfi, if_neg (not_not.mpr hf), ha, if_neg Bool.false_ne_true, if_pos hp]
  simp only [Nat.add_sub_cancel]

/-- Everything a successful normalization can have done. -/
theorem normalizeFfi_eq_ok {a b : UnixSocketAddr p} (h : a.normalizeFfi = .ok b) :
    a.addr.sunFamily = afUnix ∧
    ((a.isAbstract = true ∧ a.len ≤ p.size ∧ b = a) ∨
     (a.isPath = true ∧ p.size ≤ a.len ∧ a.len ≤ p.size + 1 ∧ b = ⟨a.addr, p.size⟩) ∨
     (a.isPath = true ∧ a.len < p.size ∧ a.addr.pathAt (a.len - 1 - p.pathOffset) ≠ 0 ∧
        b = ⟨a.addr.setPath (a.len - p.pathOffset) 0, a.len + 1⟩) ∨
     (a.isPath = true ∧ a.len < p.size ∧ a.addr.pathAt (a.len - 1 - p.pathOffset) = 0 ∧ b = a) ∨
     (a.isAbstract = false ∧ a.isPath = false ∧ b = a)) := by
  rcases normalizeFfi_cases a with ⟨-, he⟩ | ⟨-, -, -, he⟩ | ⟨hf, ha, hl, he⟩ | ⟨-, -, -, -, he⟩ |
      ⟨hf, -, hp, hl, hl', he⟩ | ⟨hf, -, hp, hl, hz, he⟩ | ⟨hf, -, hp, hl, hz, he⟩ | ⟨hf, ha, hp, he⟩ <;>
    rw [he] at h <;> cases h
  · exact ⟨hf, .inl ⟨ha, hl, rfl⟩⟩
  · exact ⟨hf, .inr (.inl ⟨hp, hl, hl', rfl⟩)⟩
  · exact ⟨hf, .inr (.inr (.inl ⟨hp, hl, hz, rfl⟩))⟩
  · exact ⟨hf, .inr (.inr (.inr (.inl ⟨hp, hl, hz, rfl⟩)))⟩
  · exact ⟨hf, .inr (.inr (.inr (.inr ⟨ha, hp, rfl⟩)))⟩

/-- The form `new_from_ffi` leaves an address in. -/
structure Canonical (a : UnixSocketAddr p) : Prop where
  family : a.addr.sunFamily = afUnix
  abstract_le : a.isAbstract = true → a.len ≤ p.size
  path_le : a.isPath = true → a.len ≤ p.size
  path_nul : a.isPath = true → a.len < p.size → a.addr.pathAt (a.len - 1 - p.pathOffset) = 0

theorem normalizeFfi_of_canonical {a : UnixSocketAddr p} (h : a.Canonical) :
    a.normalizeFfi = .ok a := by
  rcases normalizeFfi_cases a with ⟨hf, -⟩ | ⟨-, ha, hl, -⟩ | ⟨-, -, -, he⟩ | ⟨-, -, hp, hl, -⟩ |
      ⟨-, -, hp, hl, -, he⟩ | ⟨-, -, hp, hl, hz, -⟩ | ⟨-, -, -, -, -, he⟩ | ⟨-, -, -, he⟩
  · exact absurd h.family hf
  · exact absurd (h.abstract_le ha) (by omega)
  · exact he
  · exact absurd (h.path_le hp) (by omega)
  · rwa [show p.size = a.len by have := h.path_le hp; omega] at he
  · exact absurd (h.path_nul hp hl) hz
  · exact he
  · exact he

theorem canonical_of_normalizeFfi {a b : UnixSocketAddr p} (h : a.normalizeFfi = .ok b) :
    b.Canonical := by
  have hc := p.capacity_pos
  obtain ⟨hf, ⟨ha, hl, rfl⟩ | ⟨hp, -, -, rfl⟩ | ⟨hp, hl, -, rfl⟩ | ⟨hp, hl, hz, rfl⟩ | ⟨ha, hp, rfl⟩⟩ :=
    normalizeFfi_eq_ok h
  · exact ⟨hf, fun _ => hl, by simp [isPath_eq_false_of_isAbstract ha], by
      simp [isPath_eq_false_of_isAbstract ha]⟩
  · exact ⟨hf, fun _ => le_rfl, fun _ => le_rfl, fun _ h => absurd h (lt_irrefl _)⟩
  · rw [isPath_iff] at hp
    refine ⟨hf, fun _ => hl, fun _ => hl, fun _ _ => ?_⟩
    simp only [Platform.size] at hl
    rw [show a.len + 1 - 1 - p.pathOffset = a.len - p.pathOffset by omega]
    exact SockaddrUn.pathAt_setPath_self _ (by omega) _
  · exact ⟨hf, fun _ => hl.le, fun _ => hl.le, fun _ _ => hz⟩
  · exact ⟨hf, by simp [ha], by simp [hp], by simp [hp]⟩

/-- Normalizing twice is normalizing once. -/
theorem normalizeFfi_idem {a b : UnixSocketAddr p} (h : a.normalizeFfi = .ok b) :
    b.normalizeFfi = .ok b :=
  normalizeFfi_of_canonical (canonical_of_normalizeFfi h)

/-- `a - b` on `socklen_t`: `none` where it underflows and panics. -/
def checkedSub (a b : ℕ) : Option ℕ := if b ≤ a then some (a - b) else none

/-- `a + b` on `socklen_t`: `none` where it overflows and panics. -/
def checkedAdd (a b : ℕ) : Option ℕ := if a + b < UInt32.size then some (a + b) else none

theorem checkedSub_of_le {a b : ℕ} (h : b ≤ a) : checkedSub a b = some (a - b) := if_pos h

theorem checkedAdd_of_lt {a b : ℕ} (h : a + b < UInt32.size) : checkedAdd a b = some (a + b) := if_pos h

/-- The checks of `new_from_ffi` as the source evaluates them: `capacity + 1`,
`addr.len - 1 - path_offset()` and `addr.len += 1` on `socklen_t`, and
`sun_path[..]` indexed with its bounds check. `none` where one of them panics. -/
def normalizeFfiChecked (addr : UnixSocketAddr p) : Option (Except IoError (UnixSocketAddr p)) :=
  if addr.addr.sunFamily ≠ afUnix then
    some (.error ⟨.invalidData, "file descriptor did not correspond to a Unix socket"⟩)
  else if addr.isAbstract then
    if addr.len > p.size then some (.error ⟨.invalidData, "abstract name was too long"⟩)
    else some (.ok addr)
  else if addr.isPath then do
    if addr.len > (← checkedAdd p.size 1) then some (.error ⟨.invalidData, "path was too long"⟩)
    else if addr.len ≥ p.size then some (.ok ⟨addr.addr, p.size⟩)
    else do
      let i ← checkedSub (← checkedSub addr.len 1) p.pathOffset
      if (← addr.addr.sunPath[i]?) ≠ 0 then
        let len ← checkedAdd addr.len 1
        let j ← checkedSub (← checkedSub len 1) p.pathOffset
        if j < p.capacity then some (.ok ⟨addr.addr.setPath j 0, len⟩) else none
      else some (.ok addr)
  else some (.ok addr)

/-- Whatever a call leaves in the buffer and the length, no subtraction of
`new_from_ffi` underflows, no addition overflows and no index leaves `sun_path`:
the checks never panic, and what they return is `normalizeFfi`. -/
theorem normalizeFfiChecked_eq (hs : p.size + 1 < UInt32.size) (a : UnixSocketAddr p) :
    a.normalizeFfiChecked = some a.normalizeFfi := by
  unfold normalizeFfiChecked
  by_cases hf : a.addr.sunFamily = afUnix
  swap
  · rw [if_pos hf, normalizeFfi, if_pos hf]
  rw [if_neg (not_not.mpr hf)]
  cases ha : a.isAbstract
  · rw [if_neg Bool.false_ne_true]
    cases hp : a.isPath
    · rw [if_neg Bool.false_ne_true, normalizeFfi, if_neg (not_not.mpr hf), ha, hp]; rfl
    rw [if_pos rfl, normalizeFfi_of_isPath hf hp, checkedAdd_of_lt hs]
    simp only [Option.pure_def, Option.bind_eq_bind, Option.some_bind]
    by_cases h1 : a.len > p.size + 1
    · rw [if_pos h1, if_pos h1]
    rw [if_neg h1, if_neg h1]
    by_cases h2 : a.len ≥ p.size
    · rw [if_pos h2, if_pos h2]
    rw [if_neg h2, if_neg h2]
    -- the read: `o < len` from `is_path`, and `len < size`
    have hl := (isPath_iff.mp hp).1
    have hc := a.addr.sunPath_length
    simp only [Platform.size] at h2 hs
    have hb : a.addr.sunPath[a.len - 1 - p.pathOffset]? =
        some (a.addr.pathAt (a.len - 1 - p.pathOffset)) := by
      rw [SockaddrUn.pathAt, List.getD_eq_getElem _ _ (by omega), List.getElem?_eq_getElem]
    rw [checkedSub_of_le (by omega), Option.some_bind, checkedSub_of_le (by omega), Option.some_bind,
      hb, Option.some_bind]
    by_cases h4 : a.addr.pathAt (a.len - 1 - p.pathOffset) ≠ 0
    · -- the write one byte further on, still inside `sun_path`
      rw [if_pos h4, if_pos h4, checkedAdd_of_lt (by omega), Option.some_bind,
        checkedSub_of_le (by omega), Option.some_bind, Nat.add_sub_cancel,
        checkedSub_of_le (by omega), Option.some_bind, if_pos (by omega)]
    · rw [if_neg h4, if_neg h4]
  · rw [if_pos rfl, normalizeFfi, if_neg (not_not.mpr hf), ha, if_pos rfl]
    by_cases h1 : a.len > p.size
    · rw [if_pos h1, if_pos h1]
    · rw [if_neg h1, if_neg h1]

theorem normalizeFfiChecked_unterminated_linux :
    Platform.linux.size + 1 < UInt32.size ∧
    (⟨(pathAddr Platform.linux [47, 97]).addr, 4⟩ : UnixSocketAddr Platform.linux).normalizeFfiChecked =
      some (⟨(pathAddr Platform.linux [47, 97]).addr, 4⟩ : UnixSocketAddr Platform.linux).normalizeFfi :=
  ⟨by decide, normalizeFfiChecked_eq (by decide) _⟩

/-- The normalizer is idempotent, and the addresses it returns unchanged are
exactly the canonical ones. -/
theorem normalizeFfi_fixedPoints (a : UnixSocketAddr p) :
    (a.normalizeFfi = .ok a ↔ a.Canonical) ∧ ∀ b, a.normalizeFfi = .ok b → b.normalizeFfi = .ok b :=
  ⟨⟨canonical_of_normalizeFfi, normalizeFfi_of_canonical⟩, fun _ => normalizeFfi_idem⟩

private theorem take_succ_set {l : List UInt8} {n : ℕ} (h : n < l.length) (x : UInt8) :
    (l.set n x).take (n + 1) = l.take n ++ [x] := by
  rw [List.set_eq_take_append_cons_drop, if_pos h, List.take_append_eq_append_take]
  simp [Nat.min_eq_left h.le, show n + 1 - n = 1 by omega]

/-- Writing the NUL after a path that lacks one does not change its view. -/
theorem asRef_setPath_nul {a : UnixSocketAddr p} (h : p.pathOffset < a.len) (hs : a.len < p.size)
    (h0 : a.addr.pathAt 0 ≠ 0) (hl : a.addr.pathAt (a.len - 1 - p.pathOffset) ≠ 0) :
    (⟨a.addr.setPath (a.len - p.pathOffset) 0, a.len + 1⟩ : UnixSocketAddr p).asRef = a.asRef := by
  have hc := a.addr.sunPath_length
  simp only [Platform.size] at hs
  have h0' : (a.addr.setPath (a.len - p.pathOffset) 0).pathAt 0 ≠ 0 := by
    rwa [SockaddrUn.pathAt_setPath_ne _ (by omega)]
  have hw' : (⟨a.addr.setPath (a.len - p.pathOffset) 0, a.len + 1⟩ : UnixSocketAddr p).WellFormed := by
    simp only [WellFormed, Platform.size]; omega
  have hw : a.WellFormed := by simp only [WellFormed, Platform.size]; omega
  rw [asRef_of_path (show p.pathOffset < a.len + 1 by omega) hw' h0', asRef_of_path h hw h0]
  obtain ⟨n, hn⟩ : ∃ n, a.len - p.pathOffset = n + 1 := ⟨a.len - p.pathOffset - 1, by omega⟩
  have hlast : (a.addr.sunPath.take (n + 1)).getLast? ≠ some 0 := by
    rw [List.getLast?_take, if_neg (by omega), Nat.add_sub_cancel,
      List.getElem?_eq_getElem (by omega)]
    simpa [SockaddrUn.pathAt, show a.len - 1 - p.pathOffset = n by omega, hc, show n < p.capacity by omega]
      using hl
  simp only [SockaddrUn.setPath, show a.len + 1 - p.pathOffset = n + 1 + 1 by omega, hn,
    take_succ_set (show n + 1 < a.addr.sunPath.length by omega), hlast]
  simp [List.take_left' (show (a.addr.sunPath.take (n + 1)).length = n + 1 by simp; omega)]

/-- What the normalizer accepts views as the call's bytes under the call's
length clamped to the capacity, except for a zero first byte past the capacity
on a target without abstract addresses, which no check catches. -/
theorem normalizeFfi_asRef {a b : UnixSocketAddr p} (h : a.normalizeFfi = .ok b)
    (hv : hasAbstractAddresses p = true ∨ a.len ≤ p.size ∨ a.addr.pathAt 0 ≠ 0) :
    b.asRef = (⟨a.addr, min a.len p.size⟩ : UnixSocketAddr p).asRef := by
  obtain ⟨-, ⟨-, hl, rfl⟩ | ⟨-, hl, -, rfl⟩ | ⟨hp, hl, hz, rfl⟩ | ⟨-, hl, -, rfl⟩ | ⟨ha, hp, hb⟩⟩ :=
    normalizeFfi_eq_ok h
  · rw [Nat.min_eq_left hl]
  · rw [Nat.min_eq_right hl]
  · rw [Nat.min_eq_left hl.le, isPath_iff] at *
    exact asRef_setPath_nul hp.1 hl hp.2 hz
  · rw [Nat.min_eq_left hl.le]
  · rw [hb]
    by_cases hl : a.len ≤ p.size
    · rw [Nat.min_eq_left hl]
    · have := p.capacity_pos
      simp only [isAbstract, isPath, Platform.size] at *
      split at ha <;> simp_all <;> omega

/-- The path `/a` reported without its NUL on Linux gains one and keeps its view. -/
theorem normalizeFfi_asRef_unterminated_linux :
    (⟨(pathAddr Platform.linux [47, 97]).addr, 4⟩ : UnixSocketAddr Platform.linux).normalizeFfi =
      .ok ⟨(pathAddr Platform.linux [47, 97]).addr.setPath 2 0, 5⟩ ∧
    (⟨(pathAddr Platform.linux [47, 97]).addr.setPath 2 0, 5⟩ : UnixSocketAddr Platform.linux).asRef =
      (⟨(pathAddr Platform.linux [47, 97]).addr, min 4 Platform.linux.size⟩ :
        UnixSocketAddr Platform.linux).asRef :=
  ⟨rfl, @normalizeFfi_asRef Platform.linux ⟨(pathAddr Platform.linux [47, 97]).addr, 4⟩ _ rfl (.inl rfl)⟩

/-- A call that leaves the zeroed buffer on macOS and reports one byte more than
`sockaddr_un` holds: no check looks at a zero-led address there. -/
theorem newFromFfi_macos_zeroed_overlong :
    newFromFfi Platform.macos (fun _ _ => .ok ((), (newUnspecified Platform.macos).addr, 107)) =
      .ok ((), ⟨(newUnspecified Platform.macos).addr, 107⟩) := rfl

theorem newFromFfi_macos_view_unclamped :
    newFromFfi Platform.macos (fun _ _ => .ok ((), (newUnspecified Platform.macos).addr, 107)) =
      .ok ((), ⟨(newUnspecified Platform.macos).addr, 107⟩) ∧
    (⟨(newUnspecified Platform.macos).addr, 107⟩ : UnixSocketAddr Platform.macos).asRef = none ∧
    (⟨(newUnspecified Platform.macos).addr, min 107 Platform.macos.size⟩ :
      UnixSocketAddr Platform.macos).asRef = some (.abstract (List.replicate 103 0)) :=
  ⟨newFromFfi_macos_zeroed_overlong, rfl, rfl⟩

end UnixSocketAddr

end Uds
