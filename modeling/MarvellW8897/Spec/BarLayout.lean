import Mathlib.Data.List.Basic

/-!
# The layout of the BAR dwords

How a PCI device describes its BARs in six configuration dwords, read from the left: a dword is an
I/O slot, a memory slot, or the lower half of a 64-bit memory slot that takes the next dword as its
upper half. The values are natural numbers, so nothing here depends on the masks of the driver.

* `scan` — the slots that a list of dwords describes.
* `scanMarked` — the same with one slot at a time and a mark for the next; `scan_eq` ties the two.
* `scan_pair`, `scan_upper` — lower and upper halves stand side by side.
-/

namespace MarvellW8897

/-! ## Slots -/

/-- Bit 0 is set: an I/O slot. -/
def isIo (dword : UInt32) : Bool := dword.toNat % 2 == 1

/-- Bits 2 and 1 are `10`: a memory slot asks for 64 bits. -/
def isWide (dword : UInt32) : Bool := dword.toNat / 2 % 4 == 2

inductive Slot where
  | io (low : UInt32)
  | memory (low : UInt32)
  | pair (low high : UInt32)
  /-- The upper half of the pair in front of it. -/
  | upper (low : UInt32)
deriving DecidableEq, Repr

namespace Slot

def low : Slot → UInt32
  | io low | memory low | pair low _ | upper low => low

def high : Slot → UInt32
  | pair _ high => high
  | _ => 0

def isMemory : Slot → Bool
  | memory _ | pair _ _ => true
  | _ => false

def isUpper : Slot → Bool
  | upper _ => true
  | _ => false

def isPair : Slot → Bool
  | pair _ _ => true
  | _ => false

/-- A single memory slot may ask for 64 bits: it does so in vain in the last slot. -/
def is64Bit : Slot → Bool
  | pair _ _ => true
  | memory low => isWide low
  | _ => false

def configValue : Slot → Nat
  | pair low high => low.toNat + high.toNat * 4294967296
  | slot => slot.low.toNat

/-- The address: the value without its flag bits. -/
def address : Slot → Nat
  | io low => low.toNat / 4 * 4
  | slot => slot.configValue / 16 * 16

def present : Slot → Bool
  | upper _ => false
  | slot => slot.address != 0

theorem present_of_isMemory {slot : Slot} (h : slot.isMemory = true) :
    slot.present = (slot.configValue / 16 * 16 != 0) := by
  cases slot with
  | memory _ | pair _ _ => rfl
  | io _ | upper _ => simp [isMemory] at h

theorem present_of_not_isMemory {slot : Slot} (h : slot.isMemory = false)
    (hupper : slot.isUpper = false) : slot.present = (slot.low.toNat / 4 * 4 != 0) := by
  cases slot with
  | io _ => rfl
  | memory _ | pair _ _ => simp [isMemory] at h
  | upper _ => simp [isUpper] at hupper

end Slot

/-! ## The scan -/

/-- The slots of the dwords, from the left. -/
def scan : List UInt32 → List Slot
  | [] => []
  | [dword] => [if isIo dword then .io dword else .memory dword]
  | dword :: next :: rest =>
    if isIo dword then .io dword :: scan (next :: rest)
    else if isWide dword then .pair dword next :: .upper next :: scan rest
    else .memory dword :: scan (next :: rest)

/-- One slot, given whether it is marked as an upper half and which dword follows. -/
def slotOf (marked : Bool) (dword : UInt32) (next : Option UInt32) : Slot :=
  if marked then .upper dword
  else if isIo dword then .io dword
  else match next with
    | some high => if isWide dword then .pair dword high else .memory dword
    | none => .memory dword

theorem slotOf_pair {low high : UInt32} (hio : isIo low = false) (hwide : isWide low = true) :
    slotOf false low (some high) = .pair low high := by
  simp [slotOf, hio, hwide]

/-- A slot that has no upper half, by its flags or because no dword follows. -/
theorem slotOf_single {low : UInt32} {next : Option UInt32}
    (h : (!isIo low && isWide low) = false ∨ next = none) :
    slotOf false low next = if isIo low then .io low else .memory low := by
  cases next with
  | none => rfl
  | some high => cases hio : isIo low <;> simp_all [slotOf]

/-- The scan that looks one dword ahead and marks it. -/
def scanMarked (marked : Bool) : List UInt32 → List Slot
  | [] => []
  | dword :: rest =>
    let slot := slotOf marked dword rest.head?
    slot :: scanMarked slot.isPair rest

theorem scan_eq (dwords : List UInt32) : scan dwords = scanMarked false dwords := by
  induction dwords using scan.induct with
  | case1 => rfl
  | case2 dword =>
    by_cases hio : isIo dword <;> simp [scan, scanMarked, slotOf, hio]
  | case3 dword next rest hio ih =>
    simp [scan, scanMarked, slotOf, hio, ih, Slot.isPair]
  | case4 dword next rest hio hwide ih =>
    simp [scan, scanMarked, slotOf, hio, hwide, ih, Slot.isPair]
  | case5 dword next rest hio hwide ih =>
    simp [scan, scanMarked, slotOf, hio, hwide, ih, Slot.isPair]

/-! ## Pairs -/

variable {dwords : List UInt32} {b : Nat} {low high : UInt32}

theorem scan_low (dwords : List UInt32) : (scan dwords).map Slot.low = dwords := by
  induction dwords using scan.induct with
  | case1 => rfl
  | case2 dword => cases hio : isIo dword <;> simp [scan, hio, Slot.low]
  | case3 dword next rest hio ih => simp [scan, hio, ih, Slot.low]
  | case4 dword next rest hio hwide ih => simp [scan, hio, hwide, ih, Slot.low]
  | case5 dword next rest hio hwide ih => simp [scan, hio, hwide, ih, Slot.low]

/-- A slot that is no upper half is what bit 0 of its dword says. -/
theorem scan_isMemory {slot : Slot} (h : slot ∈ scan dwords) (hupper : slot.isUpper = false) :
    slot.isMemory = !isIo slot.low := by
  induction dwords using scan.induct with
  | case1 => simp [scan] at h
  | case2 dword =>
    cases hio : isIo dword <;> simp [scan, hio] at h <;> subst h <;>
      simp [Slot.isMemory, Slot.low, hio]
  | case3 dword next rest hio ih =>
    rw [scan, if_pos hio, List.mem_cons] at h
    rcases h with rfl | h
    · simp [Slot.isMemory, Slot.low, hio]
    · exact ih h
  | case4 dword next rest hio hwide ih =>
    rw [scan, if_neg hio, if_pos hwide, List.mem_cons, List.mem_cons] at h
    rcases h with rfl | rfl | h
    · simp [Slot.isMemory, Slot.low, hio]
    · simp [Slot.isUpper] at hupper
    · exact ih h
  | case5 dword next rest hio hwide ih =>
    rw [scan, if_neg hio, if_neg hwide, List.mem_cons] at h
    rcases h with rfl | h
    · simp [Slot.isMemory, Slot.low, hio]
    · exact ih h

/-- Behind a lower half stands its upper half. -/
theorem scan_pair (h : (scan dwords)[b]? = some (.pair low high)) :
    (scan dwords)[b + 1]? = some (.upper high) := by
  induction dwords using scan.induct generalizing b with
  | case1 => simp [scan] at h
  | case2 dword => cases b <;> cases hio : isIo dword <;> simp [scan, hio] at h
  | case3 dword next rest hio ih =>
    rw [scan, if_pos hio] at h ⊢
    cases b with
    | zero => simp at h
    | succ b => exact ih h
  | case4 dword next rest hio hwide ih =>
    rw [scan, if_neg hio, if_pos hwide] at h ⊢
    match b, h with
    | 0, h =>
      obtain ⟨-, rfl⟩ : dword = low ∧ next = high := by simpa using h
      rfl
    | 1, h => simp at h
    | b + 2, h => exact ih h
  | case5 dword next rest hio hwide ih =>
    rw [scan, if_neg hio, if_neg hwide] at h ⊢
    cases b with
    | zero => simp at h
    | succ b => exact ih h

/-- In front of an upper half stands its lower half. -/
theorem scan_upper (h : (scan dwords)[b]? = some (.upper high)) :
    ∃ a low, b = a + 1 ∧ (scan dwords)[a]? = some (.pair low high) := by
  have hshift : ∀ {slot : Slot} {slots : List Slot} {n : Nat},
      (∃ a low, n = a + 1 ∧ slots[a]? = some (.pair low high)) →
      ∃ a low, n + 1 = a + 1 ∧ (slot :: slots)[a]? = some (.pair low high) := by
    rintro slot slots n ⟨a, low, rfl, ha⟩
    exact ⟨a + 1, low, rfl, ha⟩
  induction dwords using scan.induct generalizing b with
  | case1 => simp [scan] at h
  | case2 dword => cases b <;> cases hio : isIo dword <;> simp [scan, hio] at h
  | case3 dword next rest hio ih =>
    rw [scan, if_pos hio] at h ⊢
    cases b with
    | zero => simp at h
    | succ b => exact hshift (ih h)
  | case4 dword next rest hio hwide ih =>
    rw [scan, if_neg hio, if_pos hwide] at h ⊢
    match b, h with
    | 0, h => simp at h
    | 1, h =>
      obtain rfl : next = high := by simpa using h
      exact ⟨0, dword, rfl, rfl⟩
    | b + 2, h => exact hshift (hshift (ih h))
  | case5 dword next rest hio hwide ih =>
    rw [scan, if_neg hio, if_neg hwide] at h ⊢
    cases b with
    | zero => simp at h
    | succ b => exact hshift (ih h)

/-- Only the last slot can ask for 64 bits in vain. -/
theorem scan_wide (h : (scan dwords)[b]? = some (.memory low)) (hwide : isWide low = true) :
    b + 1 = dwords.length := by
  induction dwords using scan.induct generalizing b with
  | case1 => simp [scan] at h
  | case2 dword =>
    cases b with
    | zero => rfl
    | succ b => cases hio : isIo dword <;> simp [scan, hio] at h
  | case3 dword next rest hio ih =>
    rw [scan, if_pos hio] at h
    cases b with
    | zero => simp at h
    | succ b => exact congrArg (· + 1) (ih h)
  | case4 dword next rest hio hw ih =>
    rw [scan, if_neg hio, if_pos hw] at h
    match b, h with
    | 0, h => simp at h
    | 1, h => simp at h
    | b + 2, h => exact congrArg (· + 2) (ih h)
  | case5 dword next rest hio hw ih =>
    rw [scan, if_neg hio, if_neg hw] at h
    cases b with
    | zero =>
      obtain rfl : dword = low := by simpa using h
      exact absurd hwide hw
    | succ b => exact congrArg (· + 1) (ih h)

end MarvellW8897
