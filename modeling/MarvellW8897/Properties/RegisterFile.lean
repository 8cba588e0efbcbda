import MarvellW8897.Properties.Association
import MarvellW8897.Spec.DeviceMemory

/-!
# The BARs as a register file

Over plain memory, the checked accesses are those of a file of 32-bit registers, one for each
register that some BAR grants.

* `Consistent.of_window` — a window is the memory of one mapped resource.
* `apart_of_access` — two different registers share no byte.
* `readRegister_writeRegister`, `writeRegister_comm` — a write changes its own register only.
* `registerFile_laws` — reads give what was last written, and writes do not interfere.
-/

namespace MarvellW8897

open Effect

namespace PciBars

variable {state : PciBarState} {b o b' o' : UInt32} {w w' : Window MmioPtr}

/-- A window is the memory of the resource that its slot names. -/
theorem Consistent.of_window (h : Consistent state) (hw : window state b = some w) :
    ∃ slot i map, b.toNat = slot.val ∧ Names state slot i ∧
      (state.resources i).map = some map ∧
      w = { base := map.pointer, length := map.length.toNat } := by
  obtain ⟨slot, hslot, -, hres, -, rfl⟩ := window_eq_some.mp hw
  rcases h.slot slot with hn | ⟨i, map, hi, hmap, hptr, hlen, -⟩
  · exact absurd hn hres
  · exact ⟨slot, i, map, hslot, hi, hmap, by rw [hptr, hlen]⟩

/-- Distinct resources occupy disjoint memory. -/
def DisjointResources (state : PciBarState) : Prop :=
  ∀ i j, i ≠ j → ∀ m ∈ (state.resources i).map, ∀ m' ∈ (state.resources j).map,
    m.virtualAddress.toNat + m.length.toNat ≤ m'.virtualAddress.toNat ∨
      m'.virtualAddress.toNat + m'.length.toNat ≤ m.virtualAddress.toNat

/-- Two different registers share no byte. -/
theorem apart_of_access (h : Consistent state) (hdisjoint : DisjointResources state)
    (hw : Access state b o w) (hw' : Access state b' o' w') (hne : ¬ (b' = b ∧ o' = o)) :
    Memory.Apart 4 (registerAddress w.base o) (registerAddress w'.base o') := by
  obtain ⟨slot, i, map, hslot, hi, hmap, rfl⟩ := h.of_window hw.1
  obtain ⟨slot', i', map', hslot', hi', hmap', rfl⟩ := h.of_window hw'.1
  obtain ⟨halign, hend⟩ := hw.2
  obtain ⟨halign', hend'⟩ := hw'.2
  dsimp only at hend hend'
  show map.virtualAddress.toNat + o.toNat + 4 ≤ map'.virtualAddress.toNat + o'.toNat ∨
    map'.virtualAddress.toNat + o'.toNat + 4 ≤ map.virtualAddress.toNat + o.toNat
  by_cases hbar : i = i'
  · -- one resource, so one slot: the offsets are different multiples of four
    obtain rfl := hbar
    obtain rfl := h.injective slot slot' i hi hi'
    obtain rfl : b' = b := UInt32.toNat_inj.mp (hslot'.trans hslot.symm)
    obtain rfl : map = map' := by simpa using hmap.symm.trans hmap'
    have hoffset : o.toNat ≠ o'.toNat := by
      intro he
      exact hne ⟨rfl, (UInt32.toNat_inj.mp he).symm⟩
    omega
  · rcases hdisjoint i i' hbar map hmap map' hmap' with hlt | hlt
    · exact Or.inl (by omega)
    · exact Or.inr (by omega)

end PciBars

section Laws

variable {state : PciBarState} {host : ByteOrder} {rest : Environment} {m : DeviceMemory}
  {b o b' o' v v' : UInt32} {w : Window MmioPtr}

/-- A write that succeeds reached its register. -/
theorem access_of_writeRegister (h : (writeRegister host rest state b o v m).1 = true) :
    ∃ w, PciBars.Access state b o w := by
  by_contra hn
  rw [writeRegister_of_rejected hn] at h
  simp at h

/-- A read after a write gives the value written, or what it gave before the write. -/
theorem readRegister_writeRegister (hc : PciBars.Consistent state)
    (hdisjoint : PciBars.DisjointResources state) (hw : PciBars.Access state b o w) :
    (readRegister host rest state b' o' (writeRegister host rest state b o v m).2).isSome =
      (readRegister host rest state b' o' m).isSome ∧
    readRegister host rest state b' o' (writeRegister host rest state b o v m).2 =
      if b' = b ∧ o' = o then some v else readRegister host rest state b' o' m := by
  rw [writeRegister_of_access hw]
  by_cases hw' : ∃ w', PciBars.Access state b' o' w'
  · obtain ⟨w', hw'⟩ := hw'
    rw [readRegister_of_access hw', readRegister_of_access hw']
    refine ⟨rfl, ?_⟩
    by_cases hsame : b' = b ∧ o' = o
    · obtain ⟨rfl, rfl⟩ := hsame
      rw [hw'.unique hw, Memory.load_store, if_pos ⟨rfl, rfl⟩]
    · have hapart := PciBars.apart_of_access hc hdisjoint hw hw' hsame
      rw [Memory.load_store_of_apart hapart, if_neg hsame]
  · rw [readRegister_of_rejected hw', readRegister_of_rejected hw', if_neg]
    · exact ⟨rfl, rfl⟩
    · rintro ⟨rfl, rfl⟩
      exact hw' ⟨w, hw⟩

/-- Writes to different registers can be exchanged. -/
theorem writeRegister_comm (hc : PciBars.Consistent state)
    (hdisjoint : PciBars.DisjointResources state) (hne : ¬ (b' = b ∧ o' = o)) :
    (writeRegister host rest state b' o' v' (writeRegister host rest state b o v m).2).2 =
      (writeRegister host rest state b o v (writeRegister host rest state b' o' v' m).2).2 := by
  by_cases hw : ∃ w, PciBars.Access state b o w
  · obtain ⟨w, hw⟩ := hw
    by_cases hw' : ∃ w', PciBars.Access state b' o' w'
    · obtain ⟨w', hw'⟩ := hw'
      simp only [writeRegister_of_access hw, writeRegister_of_access hw']
      exact Memory.store_comm (PciBars.apart_of_access hc hdisjoint hw hw' hne)
    · simp only [writeRegister_of_rejected hw']
  · simp only [writeRegister_of_rejected hw]

/-- The later of two writes to one register wins. -/
theorem writeRegister_writeRegister :
    (writeRegister host rest state b o v' (writeRegister host rest state b o v m).2).2 =
      (writeRegister host rest state b o v' m).2 := by
  by_cases hw : ∃ w, PciBars.Access state b o w
  · obtain ⟨w, hw⟩ := hw
    simp only [writeRegister_of_access hw]
    exact Memory.store_store
  · simp only [writeRegister_of_rejected hw]

end Laws

/--
The register file of a table that was built. A write that succeeds changes the four bytes of its
register to the value, least significant byte first, and nothing else; so a read gives the last
value written to its register, writes to different registers can be exchanged, and the later of two
writes to one register wins.
-/
theorem registerFile_laws {before state : PciBarState} {t : List DeviceEvent}
    (h : Runs (PciBars.mapDeviceBars true before) t (true, state))
    (hdisjoint : PciBars.DisjointResources state) (host : ByteOrder) (rest : Environment)
    (m : DeviceMemory) (b o v : UInt32) :
    let read := readRegister host rest state
    let write := writeRegister host rest state
    ((write b o v m).1 = true →
      (∀ b' o', (read b' o' (write b o v m).2).isSome = (read b' o' m).isSome ∧
        read b' o' (write b o v m).2 = if b' = b ∧ o' = o then some v else read b' o' m) ∧
      ∃ w, PciBars.Access state b o w ∧
        (∀ k < 4, (write b o v m).2 (registerAddress w.base o + k) = Memory.byteOf v k) ∧
        ∀ x, x < registerAddress w.base o ∨ registerAddress w.base o + 4 ≤ x →
          (write b o v m).2 x = m x) ∧
    (∀ b' o' v', ¬ (b' = b ∧ o' = o) →
      (write b' o' v' (write b o v m).2).2 = (write b o v (write b' o' v' m).2).2) ∧
    ∀ v', (write b o v' (write b o v m).2).2 = (write b o v' m).2 := by
  intro read write
  have hconsistent : PciBars.Consistent state := by
    rcases PciBars.mapDeviceBars_spec h with ⟨-, hbuilt⟩ | ⟨hno, -⟩
    · exact hbuilt.consistent
    · simp at hno
  refine ⟨?_, fun b' o' v' => writeRegister_comm hconsistent hdisjoint,
    fun v' => writeRegister_writeRegister⟩
  intro hok
  obtain ⟨w, hw⟩ := access_of_writeRegister hok
  refine ⟨fun b' o' => readRegister_writeRegister hconsistent hdisjoint hw, w, hw, ?_⟩
  have hwrite : (write b o v m).2 =
      Memory.store Memory.littleEndian m (registerAddress w.base o) v :=
    congrArg Prod.snd (writeRegister_of_access hw)
  rw [hwrite]
  constructor
  · intro k hk
    exact Memory.store_inside ⟨k, hk⟩
  · intro x hx
    exact Memory.store_outside hx

/-- A value written to a register of the 88W8897 on a big-endian host, and read back. -/
theorem registerFile_laws_8897 :
    readRegister .big device8897.environment table8897 2 0x44
      (writeRegister .big device8897.environment table8897 2 0x44 0x11223344 fun _ => 0).2 =
      some 0x11223344 := by
  have hdisjoint : PciBars.DisjointResources table8897 := by
    unfold PciBars.DisjointResources
    decide +kernel
  have hvalid : PciBars.isMmioAccessValid table8897 2 0x44 4 = true := by decide +kernel
  obtain ⟨w, hw⟩ := PciBars.isMmioAccessValid_iff.mp hvalid
  have hlaws := (registerFile_laws runs_table8897 hdisjoint .big device8897.environment (fun _ => 0)
    2 0x44 0x11223344).1 (congrArg Prod.fst (writeRegister_of_access hw))
  exact (hlaws.1 2 0x44).2.trans (if_pos ⟨rfl, rfl⟩)

end MarvellW8897
