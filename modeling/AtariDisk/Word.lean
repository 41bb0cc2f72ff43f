import AtariDisk.Failure

/-!
# Machine numbers

Sizes, offsets and sector numbers are natural numbers that have to stay below `2 ^ 64`. The
operations here trap as soon as a result would leave that range.
-/

namespace AtariDisk.Word

/-- Numbers from here on do not fit into a machine word. -/
def bound : Nat := 0x10000000000000000

/-- So many bytes, half of `bound`, are more than can be held in memory at once. -/
def memoryBound : Nat := 0x8000000000000000

/-- Traps if so many bytes cannot be held in memory. -/
def allocate (size : Nat) : Outcome Unit :=
  if size < memoryBound then .ok () else trap .tooLarge

def add (a b : Nat) : Outcome Nat :=
  if a + b < bound then .ok (a + b) else trap .overflow

def sub (a b : Nat) : Outcome Nat :=
  if b ≤ a then .ok (a - b) else trap .overflow

def mul (a b : Nat) : Outcome Nat :=
  if a * b < bound then .ok (a * b) else trap .overflow

def divMod (a b : Nat) : Outcome (Nat × Nat) :=
  if b = 0 then trap .divisionByZero else .ok (a / b, a % b)

theorem add_eq_ok_iff {a b c : Nat} : add a b = .ok c ↔ a + b < bound ∧ c = a + b := by
  unfold add
  split <;> simp [trap, eq_comm] <;> omega

theorem sub_eq_ok_iff {a b c : Nat} : sub a b = .ok c ↔ b ≤ a ∧ c = a - b := by
  unfold sub
  split <;> simp [trap, eq_comm] <;> omega

theorem mul_eq_ok_iff {a b c : Nat} : mul a b = .ok c ↔ a * b < bound ∧ c = a * b := by
  unfold mul
  split <;> simp [trap, eq_comm] <;> omega

/-- No sector is too large to be held in memory. -/
theorem allocate_of_le {size : Nat} (small : size ≤ 256) : allocate size = .ok () := by
  unfold allocate memoryBound
  rw [if_pos (by omega)]

end AtariDisk.Word
