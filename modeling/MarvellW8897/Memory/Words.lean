import Mathlib.Data.Nat.Bitwise
import Mathlib.Logic.Equiv.Basic
import Mathlib.Order.Fin.Basic

/-!
# Words in a memory of cells

A memory is a function from addresses to cells. A word type with an encoding into `n` cells is
loaded from and stored to `n` consecutive addresses.

* `load_store`, `load_store_of_apart`, `store_store`, `store_comm` — the laws of two accesses.
* `littleEndian`, `bigEndian` — the two encodings of a 32-bit word in bytes.
-/

namespace Memory

variable {W β : Type} {n : Nat} {e : W ≃ (Fin n → β)} {m : Nat → β} {a b x : Nat} {v w : W}

/-! ## Load and store -/

/-- The word whose cells start at `a`. -/
def load (e : W ≃ (Fin n → β)) (m : Nat → β) (a : Nat) : W := e.symm fun k => m (a + k)

/-- The memory after the cells of `w` were put at `a`. -/
def store (e : W ≃ (Fin n → β)) (m : Nat → β) (a : Nat) (w : W) : Nat → β := fun x =>
  if h : a ≤ x ∧ x - a < n then e w ⟨x - a, h.2⟩ else m x

/-- Two accesses that share no address. -/
def Apart (n a b : Nat) : Prop := a + n ≤ b ∨ b + n ≤ a

theorem store_inside (k : Fin n) : store e m a w (a + k) = e w k := by
  have hk := k.isLt
  unfold store
  rw [dif_pos (by omega)]
  exact congrArg (e w) (Fin.ext (Nat.add_sub_cancel_left a k))

theorem store_outside (h : x < a ∨ a + n ≤ x) : store e m a w x = m x := by
  unfold store
  rw [dif_neg (by omega)]

/-- Loading what was stored. -/
theorem load_store : load e (store e m a w) a = w := by
  have hcells : (fun k : Fin n => store e m a w (a + k)) = e w := funext fun k => store_inside k
  rw [load, hcells, e.symm_apply_apply]

/-- A store elsewhere does not change what is loaded. -/
theorem load_store_of_apart {U : Type} {e' : U ≃ (Fin n → β)} (h : Apart n a b) :
    load e' (store e m a w) b = load e' m b := by
  unfold load
  congr 1
  funext k
  have hk := k.isLt
  refine store_outside ?_
  rcases h with h | h
  · exact Or.inr (by omega)
  · exact Or.inl (by omega)

/-- The later of two stores at one address wins. -/
theorem store_store : store e (store e m a v) a w = store e m a w := by
  funext x
  by_cases hx : a ≤ x ∧ x - a < n
  · simp [store, hx]
  · simp [store, hx]

/-- Stores that share no address can be exchanged. -/
theorem store_comm (h : Apart n a b) :
    store e (store e m a v) b w = store e (store e m b w) a v := by
  funext x
  by_cases ha : x < a ∨ a + n ≤ x
  · rw [store_outside (e := e) (m := store e m b w) ha]
    by_cases hb : x < b ∨ b + n ≤ x
    · rw [store_outside hb, store_outside hb, store_outside ha]
    · obtain ⟨k, rfl⟩ : ∃ k, x = b + k := ⟨x - b, by omega⟩
      have hk : k < n := by omega
      exact (store_inside ⟨k, hk⟩).trans (store_inside ⟨k, hk⟩).symm
  · obtain ⟨k, rfl⟩ : ∃ k, x = a + k := ⟨x - a, by omega⟩
    have hk : k < n := by omega
    have hb : a + k < b ∨ b + n ≤ a + k := by
      rcases h with h | h
      · exact Or.inl (by omega)
      · exact Or.inr (by omega)
    rw [store_outside hb]
    exact (store_inside ⟨k, hk⟩).trans (store_inside ⟨k, hk⟩).symm

/-! ## The encodings of a 32-bit word -/

/-- Byte `k` of `v`, counted from the least significant one. -/
def byteOf (v : UInt32) (k : Nat) : UInt8 := UInt8.ofNat (v.toNat >>> (8 * k))

theorem testBit_toNat_of_le (v : UInt32) {i : Nat} (h : 32 ≤ i) : v.toNat.testBit i = false :=
  Nat.testBit_lt_two_pow (lt_of_lt_of_le v.toNat_lt (Nat.pow_le_pow_right (by decide) h))

theorem testBit_byteOf (v : UInt32) (k i : Nat) :
    (byteOf v k).toNat.testBit i = (decide (i < 8) && v.toNat.testBit (8 * k + i)) := by
  rw [byteOf, UInt8.toNat_ofNat', Nat.testBit_mod_two_pow, Nat.testBit_shiftRight]

/-- The four bytes determine the word. -/
theorem word_ext {v w : UInt32} (h : ∀ k < 4, byteOf v k = byteOf w k) : v = w := by
  rw [← UInt32.toNat_inj]
  refine Nat.eq_of_testBit_eq ?_
  intro i
  by_cases hi : i < 32
  · have hbyte := congrArg (fun b => b.toNat.testBit (i % 8)) (h (i / 8) (by omega))
    simp only [testBit_byteOf, Nat.div_add_mod] at hbyte
    simpa [Nat.mod_lt] using hbyte
  · rw [testBit_toNat_of_le v (by omega), testBit_toNat_of_le w (by omega)]

/-- The word with the given bytes, least significant first. -/
def ofBytes (bytes : Fin 4 → UInt8) : UInt32 :=
  UInt32.ofNat ((bytes 0).toNat + 0x100 * (bytes 1).toNat + 0x10000 * (bytes 2).toNat +
    0x1000000 * (bytes 3).toNat)

theorem byteOf_ofBytes (bytes : Fin 4 → UInt8) (k : Fin 4) :
    byteOf (ofBytes bytes) k = bytes k := by
  have h₀ : (bytes 0).toNat < 256 := (bytes 0).toNat_lt
  have h₁ : (bytes 1).toNat < 256 := (bytes 1).toNat_lt
  have h₂ : (bytes 2).toNat < 256 := (bytes 2).toNat_lt
  have h₃ : (bytes 3).toNat < 256 := (bytes 3).toNat_lt
  rw [← UInt8.toNat_inj, byteOf, ofBytes, UInt8.toNat_ofNat', UInt32.toNat_ofNat',
    Nat.shiftRight_eq_div_pow]
  match k with
  | 0 =>
    show _ % 0x100000000 / 0x1 % 0x100 = _
    omega
  | 1 =>
    show _ % 0x100000000 / 0x100 % 0x100 = _
    omega
  | 2 =>
    show _ % 0x100000000 / 0x10000 % 0x100 = _
    omega
  | 3 =>
    show _ % 0x100000000 / 0x1000000 % 0x100 = _
    omega

/-- The least significant byte first. -/
def littleEndian : UInt32 ≃ (Fin 4 → UInt8) where
  toFun v := fun k => byteOf v k
  invFun := ofBytes
  left_inv _ := word_ext fun k hk => byteOf_ofBytes _ ⟨k, hk⟩
  right_inv bytes := funext (byteOf_ofBytes bytes)

/-- The most significant byte first. -/
def bigEndian : UInt32 ≃ (Fin 4 → UInt8) :=
  littleEndian.trans (Fin.revPerm.arrowCongr (Equiv.refl UInt8))

end Memory
