import MarvellW8897.Memory.Words
import MarvellW8897.Spec.Environment
import MarvellW8897.Spec.Window

/-!
# Device memory as bytes

Device memory that behaves as plain memory: a byte for each address, in which the native loads and
stores of the host find and put the four bytes of a word.

* `encoding_hostToLittle`, `littleToHost_encoding` — the conversions of the access functions cancel
  the byte order of the host.
* `readRegister_of_access`, `writeRegister_of_access` — the two access functions load and store
  little-endian words, on either host.
-/

namespace MarvellW8897

open Effect

/-! ## Byte order -/

/-- How the host lays a 32-bit word out in memory. -/
def ByteOrder.encoding : ByteOrder → (UInt32 ≃ (Fin 4 → UInt8))
  | .little => Memory.littleEndian
  | .big => Memory.bigEndian

theorem testBit_secondByte (i : Nat) :
    Nat.testBit 0xFF00 i = (decide (8 ≤ i) && decide (i < 16)) := by
  rw [show 0xFF00 = (2 ^ 8 - 1) <<< 8 from rfl, Nat.testBit_shiftLeft, Nat.testBit_two_pow_sub_one]
  congr 1
  rw [decide_eq_decide]
  omega

/-- The four terms of `OSSwapInt32`, bit by bit. -/
theorem testBit_osSwapInt32_terms (v : UInt32) (i : Nat) :
    (osSwapInt32 v).toNat.testBit i =
      (decide (i < 32) && (decide (24 ≤ i) && v.toNat.testBit (i - 24)) ||
        decide (i < 32) && (decide (8 ≤ i) && (v.toNat.testBit (i - 8) &&
          (decide (8 ≤ i - 8) && decide (i - 8 < 16)))) ||
        v.toNat.testBit (8 + i) && (decide (8 ≤ i) && decide (i < 16)) ||
        v.toNat.testBit (24 + i)) := by
  unfold osSwapInt32
  simp only [UInt32.toNat_or, UInt32.toNat_and, UInt32.toNat_shiftLeft, UInt32.toNat_shiftRight,
    Nat.testBit_or, Nat.testBit_and, Nat.testBit_mod_two_pow, Nat.testBit_shiftLeft,
    Nat.testBit_shiftRight, show (0xFF00 : UInt32).toNat = 0xFF00 from rfl,
    show (24 : UInt32).toNat % 32 = 24 from rfl, show (8 : UInt32).toNat % 32 = 8 from rfl,
    testBit_secondByte]

theorem testBit_osSwapInt32 (v : UInt32) {i : Nat} (hi : i < 32) :
    (osSwapInt32 v).toNat.testBit i = v.toNat.testBit (8 * (3 - i / 8) + i % 8) := by
  have hout : ∀ j, 32 ≤ j → v.toNat.testBit j = false := fun j => Memory.testBit_toNat_of_le v
  rw [testBit_osSwapInt32_terms]
  -- one term for each byte
  by_cases h₁ : i < 8
  · rw [show 8 * (3 - i / 8) + i % 8 = 24 + i by omega]
    simp [show ¬ 24 ≤ i by omega, show ¬ 8 ≤ i by omega]
  by_cases h₂ : i < 16
  · rw [show 8 * (3 - i / 8) + i % 8 = 8 + i by omega]
    simp [show ¬ 24 ≤ i by omega, show 8 ≤ i by omega, h₂, show ¬ 8 ≤ i - 8 by omega,
      hout (24 + i) (by omega)]
  by_cases h₃ : i < 24
  · rw [show 8 * (3 - i / 8) + i % 8 = i - 8 by omega]
    simp [hi, show ¬ 24 ≤ i by omega, show 8 ≤ i by omega, h₂, show 8 ≤ i - 8 by omega,
      show i - 8 < 16 by omega, hout (24 + i) (by omega)]
  · rw [show 8 * (3 - i / 8) + i % 8 = i - 24 by omega]
    simp [hi, show 24 ≤ i by omega, h₂, show ¬ i - 8 < 16 by omega, hout (24 + i) (by omega)]

/-- `OSSwapInt32` reverses the four bytes. -/
theorem byteOf_osSwapInt32 (v : UInt32) (k : Fin 4) :
    Memory.byteOf (osSwapInt32 v) k = Memory.byteOf v k.rev := by
  have hk := k.isLt
  rw [← UInt8.toNat_inj]
  refine Nat.eq_of_testBit_eq ?_
  intro j
  rw [Memory.testBit_byteOf, Memory.testBit_byteOf]
  by_cases hj : j < 8
  · rw [testBit_osSwapInt32 v (by omega), Fin.val_rev]
    congr 2
    omega
  · simp [hj]

theorem osSwapInt32_osSwapInt32 (v : UInt32) : osSwapInt32 (osSwapInt32 v) = v := by
  refine Memory.word_ext ?_
  intro k hk
  have houter := byteOf_osSwapInt32 (osSwapInt32 v) ⟨k, hk⟩
  have hinner := byteOf_osSwapInt32 v (Fin.rev ⟨k, hk⟩)
  rw [Fin.rev_rev] at hinner
  exact houter.trans hinner

/-- A value survives the way to the device and back. -/
theorem littleToHost_hostToLittle (host : ByteOrder) (v : UInt32) :
    osSwapLittleToHostInt32 host (osSwapHostToLittleInt32 host v) = v := by
  cases host with
  | little => rfl
  | big => exact osSwapInt32_osSwapInt32 v

/-- The bytes that a native store of a converted value puts down. -/
theorem encoding_hostToLittle (host : ByteOrder) (v : UInt32) :
    host.encoding (osSwapHostToLittleInt32 host v) = Memory.littleEndian v := by
  cases host with
  | little => rfl
  | big =>
    funext k
    show Memory.byteOf (osSwapInt32 v) k.rev = Memory.byteOf v k
    have hbyte := byteOf_osSwapInt32 v k.rev
    rwa [Fin.rev_rev] at hbyte

/-- The value that a native load of those bytes is converted to. -/
theorem littleToHost_encoding (host : ByteOrder) (bytes : Fin 4 → UInt8) :
    osSwapLittleToHostInt32 host (host.encoding.symm bytes) = Memory.littleEndian.symm bytes := by
  obtain ⟨v, rfl⟩ := Memory.littleEndian.surjective bytes
  rw [← encoding_hostToLittle host v, Equiv.symm_apply_apply, littleToHost_hostToLittle,
    encoding_hostToLittle, Equiv.symm_apply_apply]

/-! ## Plain memory -/

/-- A byte for each address. -/
abbrev DeviceMemory := Nat → UInt8

/-- The address of the register at `offset` from `reg`. -/
def registerAddress (reg : MmioPtr) (offset : UInt32) : Nat := reg.address.toNat + offset.toNat

variable (host : ByteOrder)

/-- What one event does to the memory. -/
def storeEvent (m : DeviceMemory) (e : DeviceEvent) : DeviceMemory :=
  match e.op with
  | .store reg offset value => Memory.store host.encoding m (registerAddress reg offset) value
  | _ => m

/-- The memory after the events of `t`. -/
def memoryAfter (m : DeviceMemory) (t : List DeviceEvent) : DeviceMemory :=
  t.foldl (storeEvent host) m

/-- The environment whose loads read the memory, and which answers the rest as `rest` does. -/
def plainMemory (m : DeviceMemory) (rest : Environment) : Environment := fun past op =>
  match op with
  | .load reg offset =>
    Memory.load host.encoding (memoryAfter host m past) (registerAddress reg offset)
  | op => rest past op

/-- The program `p` on the memory `m`: its result, and the memory it leaves. -/
def onMemory {α : Type} (rest : Environment) (p : DeviceM α) (m : DeviceMemory) :
    α × DeviceMemory :=
  let run := p.exec (plainMemory host m rest) []
  (run.2, memoryAfter host m run.1)

/-! ## The registers of a table -/

/-- What `readReg32FromBar` gives on the memory `m`. -/
def readRegister (rest : Environment) (state : PciBarState) (barIndex offset : UInt32)
    (m : DeviceMemory) : Option UInt32 :=
  (onMemory host rest (Transport.readReg32FromBar host state barIndex offset) m).1

/-- What `writeReg32ToBar` gives on the memory `m`, and the memory it leaves. -/
def writeRegister (rest : Environment) (state : PciBarState) (barIndex offset value : UInt32)
    (m : DeviceMemory) : Bool × DeviceMemory :=
  onMemory host rest (Transport.writeReg32ToBar host state barIndex offset value) m

variable {host} {rest : Environment} {m : DeviceMemory} {state : PciBarState}
  {barIndex offset value : UInt32} {w : Window MmioPtr}

/-- A granted read gives the little-endian word of the register. -/
theorem readRegister_of_access (hw : PciBars.Access state barIndex offset w) :
    readRegister host rest state barIndex offset m =
      some (Memory.load Memory.littleEndian m (registerAddress w.base offset)) := by
  have hrun : Runs (Transport.readReg32FromBar host state barIndex offset) _ _ :=
    Transport.runs_readReg32FromBar.mpr (Or.inl ⟨w,
      Memory.load host.encoding m (registerAddress w.base offset), hw, rfl, rfl⟩)
  have hanswers : Effect.Answered (plainMemory host m rest) [] [⟨.load w.base offset,
      Memory.load host.encoding m (registerAddress w.base offset)⟩] := ⟨rfl, trivial⟩
  unfold readRegister onMemory
  rw [Program.exec_eq hrun hanswers]
  exact congrArg some (littleToHost_encoding host _)

/-- A granted write puts the little-endian word there. -/
theorem writeRegister_of_access (hw : PciBars.Access state barIndex offset w) :
    writeRegister host rest state barIndex offset value m =
      (true, Memory.store Memory.littleEndian m (registerAddress w.base offset) value) := by
  have hrun : Runs (Transport.writeReg32ToBar host state barIndex offset value) _ _ :=
    Transport.runs_writeReg32ToBar.mpr (Or.inl ⟨w, hw, rfl, rfl⟩)
  have hanswers : Effect.Answered (plainMemory host m rest) []
      [⟨.store w.base offset (osSwapHostToLittleInt32 host value), ()⟩] := ⟨rfl, trivial⟩
  unfold writeRegister onMemory
  rw [Program.exec_eq hrun hanswers]
  refine Prod.ext rfl ?_
  funext x
  show Memory.store host.encoding m _ _ x = Memory.store Memory.littleEndian m _ _ x
  unfold Memory.store
  rw [encoding_hostToLittle]

/-- A rejected read gives nothing. -/
theorem readRegister_of_rejected (hn : ¬ ∃ w, PciBars.Access state barIndex offset w) :
    readRegister host rest state barIndex offset m = none := by
  have hread : Runs (Transport.readReg32FromBar host state barIndex offset) _ _ :=
    Transport.runs_readReg32FromBar.mpr (Or.inr ⟨hn, rfl, rfl⟩)
  unfold readRegister onMemory
  rw [Program.exec_eq hread trivial]

/-- A rejected write leaves the memory alone. -/
theorem writeRegister_of_rejected (hn : ¬ ∃ w, PciBars.Access state barIndex offset w) :
    writeRegister host rest state barIndex offset value m = (false, m) := by
  have hwrite : Runs (Transport.writeReg32ToBar host state barIndex offset value) _ _ :=
    Transport.runs_writeReg32ToBar.mpr (Or.inr ⟨hn, rfl, rfl⟩)
  unfold writeRegister onMemory
  rw [Program.exec_eq hwrite trivial]
  rfl

end MarvellW8897
