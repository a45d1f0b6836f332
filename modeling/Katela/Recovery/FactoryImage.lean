import Katela.Foundation.Slices
import Katela.Recovery.Install
import Mathlib.Tactic.NormNum

/-! # The factory image

`build_image` of `tools/mkfactory.py`, over the files that it reads. A layout meets what
`src/kernel/installer.c` asserts of `include/layout.h`. -/

namespace Katela.Recovery

structure Layout where
  bootCfgLba : Nat
  bootCfgSectors : Nat
  kernelLba : Nat
  kernelSectors : Nat
  factorySectors : Nat
  kernelEnds : kernelLba + kernelSectors = factorySectors
  configEnds : bootCfgLba + bootCfgSectors ≤ kernelLba

/-- `include/layout.h`. -/
def layout : Layout where
  bootCfgLba := 400
  bootCfgSectors := 4
  kernelLba := 512
  kernelSectors := 3584
  factorySectors := 4096
  kernelEnds := rfl
  configEnds := by decide

/-- Why no image is written: the script stops with a message, or `struct.pack` raises. -/
inductive BuildError where
  | exit (message : String)
  | pack
  deriving DecidableEq, Repr

/-- `struct.pack("<QHH", lba, sectors, segment)`; only the second can be out of its range. -/
def packBlock (lba : Nat) (sectors : Int) (segment : Nat) : Except BuildError (List UInt8) :=
  if 0 ≤ sectors ∧ sectors < 65536 then
    .ok (littleEndian 8 lba ++ littleEndian 2 sectors.toNat ++ littleEndian 2 segment)
  else .error .pack

/-- The boot sector is told where the core image begins. -/
def patchBoot (boot : List UInt8) : List UInt8 :=
  ((setSlice boot 0x5C 0x64 (littleEndian 8 1)).set 0x66 0x90).set 0x67 0x90

/-- `core_sectors` of `build_image`. -/
def coreSectors (core : List UInt8) : Nat := (core.length + sectorBytes - 1) / sectorBytes

/-- The core image is filled up, and its first sector gets a block list at its end. -/
def patchCore (core block : List UInt8) : List UInt8 :=
  setSlice (core ++ List.replicate (coreSectors core * sectorBytes - core.length) 0)
    (sectorBytes - 12) (sectorBytes - 12 + 12) block

def assemble (layout : Layout) (boot core kernel config : List UInt8) : List UInt8 :=
  let image := List.replicate (layout.factorySectors * sectorBytes) 0
  let image := setSlice image 0 sectorBytes boot
  let image := setSlice image sectorBytes (sectorBytes + core.length) core
  let image := setSlice image (layout.bootCfgLba * sectorBytes)
    (layout.bootCfgLba * sectorBytes + config.length) config
  setSlice image (layout.kernelLba * sectorBytes)
    (layout.kernelLba * sectorBytes + kernel.length) kernel

def buildImage (layout : Layout) (boot core kernel config : List UInt8) :
    Except BuildError (List UInt8) :=
  let needed := coreSectors core
  let available := (layout.bootCfgLba : Int) - 1
  let limit := layout.kernelSectors * sectorBytes
  if boot.length ≠ sectorBytes then .error (.exit s!"boot image must be {sectorBytes} bytes")
  else if 1 + needed > layout.bootCfgLba then
    .error (.exit s!"core image needs {needed} sectors, only {available} available")
  else if config.length > layout.bootCfgSectors * sectorBytes then
    .error (.exit "boot config is too large")
  else if kernel.length > limit then
    .error (.exit s!"kernel is {kernel.length} bytes, limit is {limit}")
  else
    match packBlock 2 ((needed : Int) - 1) 0x820 with
    | .error error => .error error
    | .ok block =>
        .ok (assemble layout (patchBoot boot) (patchCore core block) kernel config)

/-! ## What an image holds -/

/-- The files fit into an image. -/
structure Fits (layout : Layout) (boot core kernel config : List UInt8) : Prop where
  isSector : boot.length = sectorBytes
  nonempty : 0 < core.length
  beforeConfig : coreSectors core < layout.bootCfgLba
  packed : coreSectors core ≤ 65536
  configFits : config.length ≤ layout.bootCfgSectors * sectorBytes
  kernelFits : kernel.length ≤ layout.kernelSectors * sectorBytes

/-- The sector that the boot sector reads. -/
def nextSector (bytes : Nat → UInt8) : Nat := ofLittleEndian (bytesAt bytes 0x5C 8)

/-- The sectors that the block list at the end of a sector names: the first, and how many. -/
def blockList (bytes : Nat → UInt8) (sector : Nat) : Nat × Nat :=
  (ofLittleEndian (bytesAt bytes (sector * sectorBytes + 500) 8),
    ofLittleEndian (bytesAt bytes (sector * sectorBytes + 508) 2))

/-- What the boot sector and then the block list lead to, as one memory. -/
def chainLoaded (bytes : Nat → UInt8) (index : Nat) : UInt8 :=
  let sector := nextSector bytes
  if index < sectorBytes then bytes (sector * sectorBytes + index)
  else bytes ((blockList bytes sector).1 * sectorBytes + (index - sectorBytes))

/-- A disk that starts from these files. -/
structure Bootable (layout : Layout) (boot core kernel config : List UInt8)
    (bytes : Nat → UInt8) : Prop where
  boot : ∀ i < sectorBytes, ¬ (0x5C ≤ i ∧ i < 0x64) → i ≠ 0x66 → i ≠ 0x67 →
    bytes i = boot.getD i 0
  loads : ∀ i < core.length, ¬ (500 ≤ i ∧ i < sectorBytes) → chainLoaded bytes i = core.getD i 0
  loadsAll : 1 + (blockList bytes (nextSector bytes)).2 = coreSectors core
  config : bytesAt bytes (layout.bootCfgLba * sectorBytes) config.length = config
  kernel : bytesAt bytes (layout.kernelLba * sectorBytes) kernel.length = kernel

section Sizes

variable {layout : Layout} {boot core kernel config image : List UInt8}

/-- The block list of a core image with so many sectors. -/
def blockOf (sectors : Nat) : List UInt8 :=
  littleEndian 8 2 ++ littleEndian 2 (sectors - 1) ++ littleEndian 2 0x820

theorem length_blockOf (sectors : Nat) : (blockOf sectors).length = 12 := by
  simp only [blockOf, List.length_append, length_littleEndian]

theorem packBlock_eq {sectors : Nat} (positive : 0 < sectors) (small : sectors ≤ 65536) :
    packBlock 2 ((sectors : Int) - 1) 0x820 = .ok (blockOf sectors) := by
  have isNat : ((sectors : Int) - 1).toNat = sectors - 1 := by omega
  rw [packBlock, if_pos (by omega), isNat, blockOf]

theorem coreSectors_pos : 0 < coreSectors core ↔ 0 < core.length := by
  simp only [coreSectors, sectorBytes]
  omega

theorem length_le_coreSectors (core : List UInt8) :
    core.length ≤ coreSectors core * sectorBytes := by
  simp only [coreSectors, sectorBytes]
  omega

theorem length_patchBoot (isSector : boot.length = sectorBytes) :
    (patchBoot boot).length = sectorBytes := by
  have inside : 0x64 ≤ boot.length := by
    rw [isSector]
    decide
  rw [patchBoot, List.length_set, List.length_set,
    length_setSlice (by rw [length_littleEndian]) inside, isSector]

theorem length_padded (core : List UInt8) :
    (core ++ List.replicate (coreSectors core * sectorBytes - core.length) 0).length =
      coreSectors core * sectorBytes := by
  have enough := length_le_coreSectors core
  rw [List.length_append, List.length_replicate]
  omega

theorem buildImage_eq (fits : Fits layout boot core kernel config) :
    buildImage layout boot core kernel config =
      .ok (assemble layout (patchBoot boot) (patchCore core (blockOf (coreSectors core)))
        kernel config) := by
  have room := fits.beforeConfig
  unfold buildImage
  rw [if_neg (not_not.mpr fits.isSector), if_neg (by omega), if_neg (Nat.not_lt.mpr fits.configFits),
    if_neg (Nat.not_lt.mpr fits.kernelFits),
    packBlock_eq (coreSectors_pos.mpr fits.nonempty) fits.packed]

/-- An image is only written where the files fit. -/
theorem fits_of_buildImage (built : buildImage layout boot core kernel config = .ok image) :
    Fits layout boot core kernel config := by
  unfold buildImage at built
  by_cases isSector : boot.length ≠ sectorBytes
  · rw [if_pos isSector] at built
    cases built
  rw [if_neg isSector] at built
  by_cases isCore : 1 + coreSectors core > layout.bootCfgLba
  · rw [if_pos isCore] at built
    cases built
  rw [if_neg isCore] at built
  by_cases isConfig : config.length > layout.bootCfgSectors * sectorBytes
  · rw [if_pos isConfig] at built
    cases built
  rw [if_neg isConfig] at built
  by_cases isKernel : kernel.length > layout.kernelSectors * sectorBytes
  · rw [if_pos isKernel] at built
    cases built
  rw [if_neg isKernel] at built
  have inRange : 0 ≤ (coreSectors core : Int) - 1 ∧ (coreSectors core : Int) - 1 < 65536 := by
    by_contra outside
    rw [packBlock, if_neg outside] at built
    cases built
  refine ⟨not_not.mp isSector, coreSectors_pos.mp (by omega), by omega, by omega,
    Nat.not_lt.mp isConfig, Nat.not_lt.mp isKernel⟩

theorem patchBoot_getD (isSector : boot.length = sectorBytes) {i : Nat} (notFirst : i ≠ 0x66)
    (notSecond : i ≠ 0x67) :
    (patchBoot boot).getD i 0 =
      if 0x5C ≤ i ∧ i < 0x64 then (littleEndian 8 1).getD (i - 0x5C) 0 else boot.getD i 0 := by
  have inside : 0x64 ≤ boot.length := by
    rw [isSector]
    decide
  rw [← getD_setSlice (by rw [length_littleEndian]) inside, patchBoot]
  simp only [List.getD_eq_getElem?_getD]
  rw [List.getElem?_set_ne notSecond.symm, List.getElem?_set_ne notFirst.symm]

theorem patchCore_reads (nonempty : 0 < core.length) (sectors : Nat) :
    Reads (patchCore core (blockOf sectors)) (coreSectors core * sectorBytes) fun i =>
      if 500 ≤ i ∧ i < 512 then (blockOf sectors).getD (i - 500) 0 else core.getD i 0 := by
  have positive := coreSectors_pos.mpr nonempty
  have room : sectorBytes - 12 + 12 ≤ coreSectors core * sectorBytes := by
    simp only [sectorBytes]
    omega
  have padded : Reads (core ++ List.replicate (coreSectors core * sectorBytes - core.length) 0)
      (coreSectors core * sectorBytes) fun i => core.getD i 0 := by
    refine ⟨length_padded core, fun i => ?_⟩
    by_cases inside : i < core.length
    · exact List.getD_append _ _ _ _ inside
    · have isZero := (Reads.replicate (coreSectors core * sectorBytes - core.length)).isByte
        (i - core.length)
      rw [List.getD_append_right _ _ _ _ (Nat.not_lt.mp inside), isZero,
        List.getD_eq_default _ _ (Nat.not_lt.mp inside)]
  exact padded.setSlice (by rw [length_blockOf]) room

/-- A byte of an image comes from the last part that covers it. -/
theorem assemble_reads (isSector : boot.length = sectorBytes)
    (beforeConfig : sectorBytes + core.length ≤ layout.bootCfgLba * sectorBytes)
    (configFits : config.length ≤ layout.bootCfgSectors * sectorBytes)
    (kernelFits : kernel.length ≤ layout.kernelSectors * sectorBytes) :
    Reads (assemble layout boot core kernel config) (layout.factorySectors * sectorBytes) fun i =>
      if layout.kernelLba * sectorBytes ≤ i ∧ i < layout.kernelLba * sectorBytes + kernel.length
      then kernel.getD (i - layout.kernelLba * sectorBytes) 0
      else if layout.bootCfgLba * sectorBytes ≤ i ∧
        i < layout.bootCfgLba * sectorBytes + config.length
      then config.getD (i - layout.bootCfgLba * sectorBytes) 0
      else if sectorBytes ≤ i ∧ i < sectorBytes + core.length
      then core.getD (i - sectorBytes) 0
      else if 0 ≤ i ∧ i < sectorBytes then boot.getD (i - 0) 0
      else 0 := by
  have kernelEnds := congrArg (· * sectorBytes) layout.kernelEnds
  have configEnds := Nat.mul_le_mul_right sectorBytes layout.configEnds
  simp only [Nat.add_mul] at kernelEnds configEnds
  exact ((((Reads.replicate _).setSlice (by omega) (by omega)).setSlice rfl (by omega)).setSlice
    rfl (by omega)).setSlice rfl (by omega)

/-- What starts with an image boots from its files. -/
theorem bootable_of_image {bytes : Nat → UInt8} (fits : Fits layout boot core kernel config)
    (built : buildImage layout boot core kernel config = .ok image)
    (starts : ∀ i < layout.factorySectors * sectorBytes, bytes i = image.getD i 0) :
    Bootable layout boot core kernel config bytes := by
  have isImage := built.symm.trans (buildImage_eq fits)
  cases isImage
  have isBytes : sectorBytes = 512 := rfl
  have positive := coreSectors_pos.mpr fits.nonempty
  have oneSector := Nat.le_mul_of_pos_left sectorBytes positive
  have enough := length_le_coreSectors core
  have core' := patchCore_reads fits.nonempty (coreSectors core)
  have room := Nat.mul_le_mul_right sectorBytes fits.beforeConfig
  have kernelEnds := congrArg (· * sectorBytes) layout.kernelEnds
  have configEnds := Nat.mul_le_mul_right sectorBytes layout.configEnds
  have configFits := fits.configFits
  have kernelFits := fits.kernelFits
  simp only [Nat.add_mul, Nat.succ_mul] at kernelEnds configEnds room
  have reads := assemble_reads (length_patchBoot fits.isSector)
    (by rw [core'.isLength]; omega) fits.configFits fits.kernelFits
  have byte : ∀ i < layout.factorySectors * sectorBytes, bytes i = _ :=
    fun i inside => (starts i inside).trans (reads.isByte i)
  rw [core'.isLength] at byte
  -- The sectors of the boot loader come before those of the configuration.
  have inBoot : ∀ i < sectorBytes, bytes i = (patchBoot boot).getD i 0 := by
    intro i inside
    rw [byte i (by omega), if_neg (by omega), if_neg (by omega), if_neg (by omega),
      if_pos ⟨Nat.zero_le i, inside⟩, Nat.sub_zero]
  have inCore : ∀ i < coreSectors core * sectorBytes, bytes (sectorBytes + i) =
      if 500 ≤ i ∧ i < 512 then (blockOf (coreSectors core)).getD (i - 500) 0
      else core.getD i 0 := by
    intro i inside
    rw [byte _ (by omega), if_neg (by omega), if_neg (by omega), if_pos (by omega),
      Nat.add_sub_cancel_left, core'.isByte]
  have isNext : nextSector bytes = 1 := by
    have pointer : bytesAt bytes 0x5C 8 = littleEndian 8 1 := by
      refine @bytesAt_eq _ _ (littleEndian 8 1) fun i inside => ?_
      rw [length_littleEndian] at inside
      rw [inBoot _ (by omega), patchBoot_getD fits.isSector (by omega) (by omega),
        if_pos (by omega), Nat.add_sub_cancel_left]
    rw [nextSector, pointer]
    exact ofLittleEndian_littleEndian 8 (by norm_num)
  have inBlock : ∀ i < 12, bytes (1 * sectorBytes + 500 + i) =
      (blockOf (coreSectors core)).getD i 0 := by
    intro i inside
    rw [Nat.one_mul, Nat.add_assoc, inCore _ (by omega), if_pos (by omega),
      Nat.add_sub_cancel_left]
  have isBlock : blockList bytes 1 = (2, coreSectors core - 1) := by
    have first : bytesAt bytes (1 * sectorBytes + 500) 8 = littleEndian 8 2 := by
      refine @bytesAt_eq _ _ (littleEndian 8 2) fun i inside => ?_
      rw [length_littleEndian] at inside
      rw [inBlock i (by omega), blockOf, List.append_assoc,
        List.getD_append _ _ _ _ (by rw [length_littleEndian]; omega)]
    have count : bytesAt bytes (1 * sectorBytes + 508) 2 =
        littleEndian 2 (coreSectors core - 1) := by
      refine @bytesAt_eq _ _ (littleEndian 2 _) fun i inside => ?_
      rw [length_littleEndian] at inside
      have isIndex : 1 * sectorBytes + 508 + i = 1 * sectorBytes + 500 + (8 + i) := by omega
      have isFront : (littleEndian 8 2 ++ littleEndian 2 (coreSectors core - 1)).length = 10 := by
        simp only [List.length_append, length_littleEndian]
      rw [isIndex, inBlock _ (by omega), blockOf,
        List.getD_append _ _ _ _ (by rw [isFront]; omega),
        List.getD_append_right _ _ _ _ (by rw [length_littleEndian]; omega),
        length_littleEndian, Nat.add_sub_cancel_left]
    have packed := fits.packed
    rw [blockList, first, count, ofLittleEndian_littleEndian 8 (by norm_num),
      ofLittleEndian_littleEndian 2 (by norm_num; omega)]
  refine ⟨?_, ?_, ?_, ?_, ?_⟩
  · intro i inside outside notFirst notSecond
    rw [inBoot i inside, patchBoot_getD fits.isSector notFirst notSecond, if_neg outside]
  · intro i inside outside
    have loaded : chainLoaded bytes i = bytes (sectorBytes + i) := by
      rw [chainLoaded, isNext, isBlock]
      split
      · rw [Nat.one_mul]
      · exact congrArg bytes (by omega)
    rw [loaded, inCore i (by omega), if_neg (by omega)]
  · rw [isNext, isBlock]
    omega
  · refine bytesAt_eq fun i inside => ?_
    rw [byte _ (by omega), if_neg (by omega), if_pos (by omega), Nat.add_sub_cancel_left]
  · refine bytesAt_eq fun i inside => ?_
    rw [byte _ (by omega), if_pos (by omega), Nat.add_sub_cancel_left]

end Sizes

end Katela.Recovery
