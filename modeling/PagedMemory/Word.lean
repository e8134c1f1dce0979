import PagedMemory.Error

/-!
# Little-endian words

A word is stored lowest byte first.

- `ofBytes_bytes`: reading what was stored gives the value modulo the width;
- `bytes_ofBytes`: the bytes of a word are those that it was read from.
-/

namespace PagedMemory

namespace Word

/-- The lowest `n` bytes of `v`, lowest first. -/
def bytes : Nat → Nat → List UInt8
  | 0, _ => []
  | n + 1, v => UInt8.ofNat v :: bytes n (v / 256)

/-- The number whose bytes are given, lowest first. -/
def ofBytes : List UInt8 → Nat
  | [] => 0
  | b :: bs => b.toNat + 256 * ofBytes bs

/-- How many values `n` bytes can have. -/
def values : Nat → Nat
  | 0 => 1
  | n + 1 => 256 * values n

/-- The widths of a word. -/
def IsWidth (len : Nat) : Prop := len = 1 ∨ len = 2 ∨ len = 4

instance (len : Nat) : Decidable (IsWidth len) := inferInstanceAs (Decidable (_ ∨ _))

/-- Refuses what is not the width of a word. -/
def checkWidth (len : Nat) : Except Error Unit :=
  if IsWidth len then .ok () else .error (.badWidth len)

/-! ## Bytes and values -/

@[simp] theorem length_bytes (n v : Nat) : (bytes n v).length = n := by
  induction n generalizing v with
  | zero => rfl
  | succ n ih => simp [bytes, ih]

/-- Reading what was stored gives the value modulo the width. -/
theorem ofBytes_bytes (n v : Nat) : ofBytes (bytes n v) = v % values n := by
  induction n generalizing v with
  | zero => simp [bytes, ofBytes, values, Nat.mod_one]
  | succ n ih =>
    rw [bytes, ofBytes, ih, values, Nat.mod_mul]
    rfl

/-- The bytes of a word are those that it was read from. -/
theorem bytes_ofBytes (bs : List UInt8) : bytes bs.length (ofBytes bs) = bs := by
  induction bs with
  | nil => rfl
  | cons b bs ih =>
    have hb := b.toNat_lt
    have hdiv : (b.toNat + 256 * ofBytes bs) / 256 = ofBytes bs := by omega
    have hmod : UInt8.ofNat (b.toNat + 256 * ofBytes bs) = b := by
      rw [← UInt8.toNat_inj, UInt8.toNat_ofNat']
      omega
    rw [List.length_cons, bytes, ofBytes, hdiv, hmod, ih]

/-- A word is one of the values of its width. -/
theorem ofBytes_lt (bs : List UInt8) : ofBytes bs < values bs.length := by
  induction bs with
  | nil => simp [ofBytes, values]
  | cons b bs ih =>
    have hb := b.toNat_lt
    rw [ofBytes, List.length_cons, values]
    omega

end Word

end PagedMemory
