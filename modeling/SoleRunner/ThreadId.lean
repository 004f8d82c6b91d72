/-!
# ThreadId — names of virtual threads, and one name for nobody

A thread is named by a 32-bit index into the thread table.  The greatest value names no thread
(`nobody`), which is how "no executor" and "no current runner" are written.  A name travels through a
64-bit register by `toReg` and comes back by `ofReg`; `ofReg_toReg` says that the trip loses nothing.
-/

namespace SoleRunner

/-- The name of a virtual thread: an index into the thread table. -/
structure ThreadId where
  raw : UInt32
deriving DecidableEq

namespace ThreadId

/-- **Nobody**: the one value that names no thread. -/
def nobody : ThreadId := ⟨0xFFFFFFFF⟩

instance : Inhabited ThreadId := ⟨nobody⟩

/-- The thread in slot `i`. -/
def ofIndex (i : Nat) : ThreadId := ⟨i.toUInt32⟩

/-- The slot that `t` names. -/
def index (t : ThreadId) : Nat := t.raw.toNat

/-- The register value for `t`; nobody is written with every bit set. -/
def toReg (t : ThreadId) : UInt64 :=
  if t = nobody then 0xFFFFFFFFFFFFFFFF else t.raw.toUInt64

/-- The thread that a register value names: every value too large for a thread names nobody. -/
def ofReg (v : UInt64) : ThreadId :=
  if 0xFFFFFFFF ≤ v then nobody else ⟨v.toUInt32⟩

/-- `t` as it stands in messages. -/
def text (t : ThreadId) : String :=
  if t = nobody then "none" else toString t.raw.toNat

instance : ToString ThreadId := ⟨text⟩

/-- `t` as it stands inside an inspected value. -/
def inspect (t : ThreadId) : String :=
  if t = nobody then "ThreadId(NONE)" else s!"ThreadId({t.raw.toNat})"

@[simp] theorem index_mk (n : UInt32) : index ⟨n⟩ = n.toNat := rfl

theorem index_inj {t u : ThreadId} : t.index = u.index ↔ t = u := by
  cases t
  cases u
  simp [UInt32.toNat_inj]

theorem index_ofIndex {i : Nat} (h : i < nobody.index) : (ofIndex i).index = i := by
  have h' : i < 4294967295 := h
  simp only [index, ofIndex, Nat.toUInt32_eq, UInt32.toNat_ofNat']
  omega

@[simp] theorem ofIndex_index (t : ThreadId) : ofIndex t.index = t :=
  congrArg ThreadId.mk UInt32.ofNat_toNat

/-! ## The register encoding -/

theorem toNat_raw_lt {t : ThreadId} (h : t ≠ nobody) : t.raw.toNat < 0xFFFFFFFF := by
  have hne : t.raw.toNat ≠ 0xFFFFFFFF := fun e =>
    h (congrArg ThreadId.mk (UInt32.toNat_inj.mp e))
  have := t.raw.toNat_lt
  omega

/-- A thread is written as its index. -/
theorem toReg_of_ne {t : ThreadId} (h : t ≠ nobody) : t.toReg = t.raw.toUInt64 := if_neg h

theorem ofReg_toReg (t : ThreadId) : ofReg t.toReg = t := by
  unfold toReg
  split
  · next h => subst h; decide
  · next h =>
    have hlt := toNat_raw_lt h
    have hle : ¬ (0xFFFFFFFF : UInt64) ≤ t.raw.toUInt64 := by
      rw [UInt64.le_iff_toNat_le]
      simpa using hlt
    simp [ofReg, hle]

/-- A register value that is too large for a thread names nobody. -/
theorem ofReg_of_le {v : UInt64} (h : nobody.index ≤ v.toNat) : ofReg v = nobody := by
  have hle : (0xFFFFFFFF : UInt64) ≤ v := UInt64.le_iff_toNat_le.mpr h
  rw [ofReg, if_pos hle]

/-- Every other one names the thread with its index. -/
theorem index_ofReg {v : UInt64} (h : v.toNat < nobody.index) : (ofReg v).index = v.toNat := by
  have hlt : ¬ (0xFFFFFFFF : UInt64) ≤ v := fun hle =>
    Nat.not_le.mpr h (UInt64.le_iff_toNat_le.mp hle)
  have h' : v.toNat < 4294967295 := h
  rw [ofReg, if_neg hlt, index_mk, UInt64.toNat_toUInt32]
  omega

/-- Nothing but its index names a thread. -/
theorem ofReg_eq_iff {t : ThreadId} {v : UInt64} (h : t ≠ nobody) : ofReg v = t ↔ v.toNat = t.index := by
  by_cases hv : v.toNat < nobody.index
  · rw [← index_inj, index_ofReg hv]
  · have hle : nobody.index ≤ v.toNat := Nat.not_lt.mp hv
    have hlt : t.index < nobody.index := toNat_raw_lt h
    rw [ofReg_of_le hle]
    constructor
    · intro he
      exact absurd he.symm h
    · intro he
      omega

end ThreadId

end SoleRunner
