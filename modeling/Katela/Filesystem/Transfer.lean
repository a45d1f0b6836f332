import Katela.Filesystem.Contents

/-! # Transfers between files and memory

The loops of `fs_read` and `write_impl`. A round moves bytes of one cluster
and at least one byte. -/

namespace Katela.Filesystem

section Transfer

variable {F : Format} {live : FileRef → Prop} {s s' s'' : Fs}
variable {own own' own'' : Ownership} {file : FileRef}

theorem Inv.clusterBytes_eq (inv : Inv F live s own) :
    clusterBytes s = F.clusterBytes := by
  simp only [clusterBytes, Format.clusterBytes, inv.shift]

theorem Inv.wholeSectors_eq (inv : Inv F live s own) (position remaining : Nat) :
    wholeSectors s position remaining =
      min (remaining / sectorSize) (2 ^ F.shift - F.sectorIn position) := by
  simp only [wholeSectors, inv.clusterBytes_eq, inv.shift]
  rfl

/-! ## Reading -/

/-- An open file was looked at. -/
structure Visited (F : Format) (live : FileRef → Prop) (file : FileRef)
    (s s' : Fs) (own own' : Ownership) : Prop where
  worked : Worked F live file s s' own own'
  chain : chainOf s' own' file = chainOf s own file
  image_eq : ∀ sector, F.sb.fatSectors < sector → s'.image sector = s.image sector

namespace Visited

theorem refl (inv : Inv F live s own) (file : FileRef) :
    Visited F live file s s own own :=
  ⟨.refl inv file, rfl, fun _ _ => rfl⟩

theorem trans (first : Visited F live file s s' own own')
    (second : Visited F live file s' s'' own' own'') :
    Visited F live file s s'' own own'' :=
  ⟨first.worked.trans second.worked, second.chain.trans first.chain,
    fun sector outside => (second.image_eq sector outside).trans
      (first.image_eq sector outside)⟩

/-- Functions that change nothing but the FAT and its cache. -/
theorem ofFatOnly (opened : Open F s.image own file (s.files file))
    (inv : Inv F live s' own) (only : FatOnly F s s') :
    Visited F live file s s' own own := by
  have owner := only.ownerOf_eq opened
  have chain : chainOf s' own file = chainOf s own file := by
    unfold chainOf
    rw [owner]
  refine ⟨⟨inv, only.same, only.iters, ?_, ?_, ?_, ?_, rfl, rfl, fun _ _ => rfl,
    ?_, ?_, ?_⟩, chain, fun sector outside => only.image_eq sector (Or.inr outside)⟩
  · exact fun other _ => by rw [only.files]
  · rw [only.files]
  · rw [only.files]
  · rw [only.files]
    exact Or.inl rfl
  · exact fun location inDir => only.image_eq _ (Or.inr inDir.fat_lt)
  · simp only [chain, List.prefix_rfl]
  · exact fun location _ => .ofFatOnly only rfl rfl

theorem byteAt_eq (visited : Visited F live file s s' own own') (position : Nat) :
    F.byteAt s'.image (chainOf s' own' file) position =
      F.byteAt s.image (chainOf s own file) position := by
  unfold Format.byteAt
  rw [visited.chain, visited.image_eq]
  have start := F.geometry.start
  simp only [Format.sectorOf, sectorOf]
  omega

end Visited

/-- The position is in the cluster under the cursor. -/
theorem Positioned.sector_bounds {index : Nat}
    (positioned : Positioned F live file s s' own own' index) (position : Nat) :
    cursorSector s' file position =
        F.sectorOf (s'.files file).cursorCluster + F.sectorIn position ∧
      F.sb.fatSectors < F.sectorOf (s'.files file).cursorCluster ∧
      F.sectorOf (s'.files file).cursorCluster + 2 ^ F.shift ≤
        F.sb.totalSectors := by
  have inv := positioned.worked.inv
  have member := List.mem_of_getElem? positioned.here
  have bounds := inv.accounted.bounds _ _ member
  have power := Nat.two_pow_pos F.shift
  refine ⟨?_, ?_, ?_⟩
  · unfold cursorSector
    rw [inv.clusterSector_eq member, inv.clusterBytes_eq]
    rfl
  · exact F.fat_lt_of_inCluster ⟨Nat.le_refl _, Nat.lt_add_of_pos_right power⟩
  · have last := F.geometry.sector_lt bounds.2 bounds.1
      (Nat.sub_one_lt_of_lt power)
    simp only [Format.sectorOf]
    omega

/-- The bytes that a round of `fs_read` delivers. -/
structure Delivered (F : Format) (image : Image) (cells : List Nat)
    (position remaining : Nat) (bytes : List UInt8) : Prop where
  positive : 0 < bytes.length
  bounded : bytes.length ≤ remaining
  bytes_eq : bytes = (List.range bytes.length).map fun index =>
    F.byteAt image cells (position + index)

theorem Format.wholeSectors_bounds (F : Format) {position remaining : Nat}
    (aligned : position % sectorSize = 0) (enough : remaining ≥ sectorSize) :
    let sectors := min (remaining / sectorSize) (2 ^ F.shift - F.sectorIn position)
    0 < sectors ∧ sectors * sectorSize ≤ remaining ∧
      F.sectorIn position + sectors ≤ 2 ^ F.shift ∧
      position % F.clusterBytes = F.sectorIn position * sectorSize := by
  have less := F.sectorIn_lt position
  have whole : position % F.clusterBytes % sectorSize = 0 := by
    rw [F.mod_clusterBytes_mod]
    exact aligned
  simp only [sectorIn, sectorSize] at *
  omega

/-- Bytes of consecutive whole sectors. -/
theorem Format.byteAt_sectors {image : Image} {cells : List Nat}
    {position cluster sectors index : Nat}
    (here : cells[position / F.clusterBytes]? = some cluster)
    (aligned : position % sectorSize = 0)
    (start : position % F.clusterBytes = F.sectorIn position * sectorSize)
    (fits : F.sectorIn position + sectors ≤ 2 ^ F.shift)
    (inside : index < sectors * sectorSize) :
    F.byteAt image cells (position + index) =
      (image (F.sectorOf cluster + F.sectorIn position + index / sectorSize)).byteAt
        (index % sectorSize) := by
  have near : position % F.clusterBytes + index < F.clusterBytes := by
    have bound := Nat.mul_le_mul_right sectorSize fits
    rw [← F.clusterBytes_eq, Nat.add_mul, ← start] at bound
    omega
  rcases Format.position_add near with ⟨sameCluster, offset⟩
  rw [← sameCluster] at here
  rw [Format.byteAt_of_cell here]
  have sector : F.sectorIn (position + index) =
      F.sectorIn position + index / sectorSize := by
    unfold Format.sectorIn at *
    rw [offset, start]
    simp only [sectorSize]
    omega
  have byte : (position + index) % sectorSize = index % sectorSize := by
    rw [Nat.add_mod, aligned, Nat.zero_add, Nat.mod_mod]
  rw [sector, byte, Nat.add_assoc]

/-- Bytes of a part of one sector. -/
theorem Format.byteAt_chunk {image : Image} {cells : List Nat}
    {position cluster index : Nat}
    (here : cells[position / F.clusterBytes]? = some cluster)
    (inside : position % sectorSize + index < sectorSize) :
    F.byteAt image cells (position + index) =
      (image (F.sectorOf cluster + F.sectorIn position)).byteAt
        (position % sectorSize + index) := by
  have less := F.sectorIn_lt position
  have start : position % F.clusterBytes =
      F.sectorIn position * sectorSize + position % sectorSize := by
    rw [← F.mod_clusterBytes_mod position]
    exact (Nat.div_add_mod' _ _).symm
  have near : position % F.clusterBytes + index < F.clusterBytes := by
    have bound := Nat.mul_le_mul_right sectorSize (Nat.succ_le_of_lt less)
    rw [← F.clusterBytes_eq, Nat.succ_mul] at bound
    omega
  rcases Format.position_add near with ⟨sameCluster, offset⟩
  rw [← sameCluster] at here
  rw [Format.byteAt_of_cell here]
  have sector : F.sectorIn (position + index) = F.sectorIn position := by
    unfold Format.sectorIn at *
    rw [offset, start]
    simp only [sectorSize] at *
    omega
  have byte : (position + index) % sectorSize = position % sectorSize + index := by
    simp only [sectorSize] at *
    omega
  rw [sector, byte]

theorem readRound_spec {position remaining : Nat} (inv : Inv F live s own)
    (spare : own .spare = []) (isLive : live file)
    (inside : position < (chainOf s own file).length * F.clusterBytes)
    (positive : 0 < remaining) :
    Meets (readRound file position remaining) s
      (fun bytes s' => ∃ own', Visited F live file s s' own own' ∧
        Delivered F s.image (chainOf s own file) position remaining bytes)
      fun error s' => error = .io ∧ ¬ s.Quiet ∧
        ∃ own', Visited F live file s s' own own' := by
  have opened := inv.handles.opened file isLive
  have index : position / F.clusterBytes < (chainOf s own file).length :=
    (Nat.div_lt_iff_lt_mul F.clusterBytes_pos).mpr inside
  unfold readRound
  refine .bind (.get ?_)
  rw [inv.clusterBytes_eq]
  refine (fileReach_spec inv spare isLive (Or.inl index)).seq ?_ ?_
  · rintro _ s1 ⟨own1, positioned⟩
    have inv1 := positioned.worked.inv
    have chain : chainOf s1 own1 file = chainOf s own file := by
      rcases positioned.chain with same | atEnd
      · exact same
      · omega
    have visited : Visited F live file s s1 own own1 :=
      ⟨positioned.worked, chain, positioned.image_eq⟩
    have here := positioned.here
    rcases positioned.sector_bounds position with ⟨sector, beyond, bound⟩
    have seen : ∀ {s2 : Fs}, Moved s1 s2 s1.image →
        ∃ own', Visited F live file s s2 own own' := by
      intro s2 moved
      refine ⟨own1, visited.trans (.ofFatOnly
        (inv1.handles.opened file isLive) (inv1.unmoved moved) (.ofUnmoved moved))⟩
    refine .bind (.get (.ite (fun whole => ?_) fun part => ?_))
    · rcases F.wholeSectors_bounds whole.1 whole.2 with ⟨some, fewer, fits, start⟩
      rw [inv1.wholeSectors_eq, sector]
      generalize min (remaining / sectorSize) (2 ^ F.shift - F.sectorIn position) =
        count at some fewer fits
      refine (blocksRead_spec count inv1.geometry inv1.coherent
        (by rw [inv1.sb]; omega) (by rw [inv1.sb]; omega)).seq ?_ ?_
      · rintro blocks s2 ⟨moved, rfl⟩
        rcases seen moved with ⟨own2, visited2⟩
        refine .pure ⟨own2, visited2, ?_, ?_, ?_⟩
        · simp only [List.length_map, List.length_range, sectorSize]
          omega
        · simpa using fewer
        · simp only [List.length_map, List.length_range]
          apply List.map_congr_left
          intro byte member
          rw [List.mem_range] at member
          have quotient : byte / sectorSize < count :=
            (Nat.div_lt_iff_lt_mul (by decide)).mpr member
          rw [← visited.byteAt_eq, Format.byteAt_sectors here whole.1 start fits
            member]
          congr 1
          simp [List.getD_eq_getElem?_getD, quotient]
      · rintro error s2 ⟨isIo, loud, moved⟩
        exact ⟨isIo, positioned.worked.same.not_quiet loud, seen moved⟩
    · have less := F.sectorIn_lt position
      rw [sector]
      refine (blockRead_image inv1.geometry inv1.coherent (by rw [inv1.sb]; omega)
        (by rw [inv1.sb]; omega)).seq ?_ ?_
      · rintro block s2 ⟨rfl, moved⟩
        rcases seen moved with ⟨own2, visited2⟩
        have inSector := Nat.mod_lt position (show 0 < sectorSize by decide)
        refine .pure ⟨own2, visited2, ?_, ?_, ?_⟩
        · simp only [List.length_map, List.length_range, chunkLength]
          omega
        · simp only [List.length_map, List.length_range, chunkLength]
          omega
        · simp only [List.length_map, List.length_range]
          apply List.map_congr_left
          intro byte member
          rw [List.mem_range, chunkLength] at member
          rw [← visited.byteAt_eq, Format.byteAt_chunk here (by omega)]
      · rintro error s2 ⟨isIo, loud, moved⟩
        exact ⟨isIo, positioned.worked.same.not_quiet loud, seen moved⟩
  · rintro error s1 failed
    rcases failed.why with ⟨isIo, loud⟩ | ⟨_, impossible, _⟩
    · exact ⟨isIo, loud, own, .ofFatOnly opened failed.inv failed.only⟩
    · omega

/-- The bytes read so far are those of the file from `offset` on. -/
theorem Delivered.append {image : Image} {cells : List Nat}
    {offset remaining : Nat} {out bytes : List UInt8}
    (isOut : out = (List.range out.length).map fun index =>
      F.byteAt image cells (offset + index))
    (delivered : Delivered F image cells (offset + out.length) remaining bytes) :
    out ++ bytes = (List.range (out ++ bytes).length).map fun index =>
      F.byteAt image cells (offset + index) := by
  have isBytes := delivered.bytes_eq
  rw [List.length_append, List.range_add, List.map_append, List.map_map, ← isOut]
  congr 1
  rw [isBytes]
  simp only [List.length_map, List.length_range]
  apply List.map_congr_left
  intro index _
  simp only [Function.comp_apply, Nat.add_assoc]

theorem readLoop_spec {offset count : Nat} (rounds : Nat) :
    ∀ {s : Fs} {own : Ownership} {out : List UInt8}, Inv F live s own →
    own .spare = [] → live file →
    offset + count ≤ (chainOf s own file).length * F.clusterBytes →
    (out = (List.range out.length).map fun index =>
      F.byteAt s.image (chainOf s own file) (offset + index)) →
    out.length ≤ count → count ≤ out.length + rounds →
    Meets (readLoop file offset count rounds out) s
      (fun bytes s' => (∃ own', Visited F live file s s' own own') ∧
        (bytes = (List.range bytes.length).map fun index =>
          F.byteAt s.image (chainOf s own file) (offset + index)) ∧
        bytes.length ≤ count ∧ (s.Quiet → bytes.length = count))
      fun error s' => error = .io ∧ ¬ s.Quiet ∧
        ∃ own', Visited F live file s s' own own' := by
  induction rounds with
  | zero =>
      intro s own out inv _ _ _ isOut less enough
      exact .pure ⟨⟨own, .refl inv file⟩, isOut, less, fun _ => by omega⟩
  | succ rounds induction =>
      intro s own out inv spare isLive fits isOut less enough
      unfold readLoop
      refine .ite (fun more => ?_) fun done => ?_
      · refine .bind (.attempt ((readRound_spec inv spare isLive (by omega)
          (by omega)).mono ?_ ?_))
        · rintro bytes s1 ⟨own1, visited, delivered⟩
          have bounded := delivered.bounded
          have positive := delivered.positive
          have chain := visited.chain
          have joined := delivered.append isOut
          have joined1 : out ++ bytes =
              (List.range (out ++ bytes).length).map fun index =>
                F.byteAt s1.image (chainOf s1 own1 file) (offset + index) := by
            simp only [visited.byteAt_eq]
            exact joined
          refine (induction visited.worked.inv
            (visited.worked.spare.trans spare) isLive
            (by rw [visited.chain]; exact fits) joined1
            (by rw [List.length_append]; omega)
            (by rw [List.length_append]; omega)).mono ?_ ?_
          · rintro result s2 ⟨⟨own2, visited2⟩, isResult, bound, all⟩
            simp only [visited.byteAt_eq] at isResult
            exact ⟨⟨own2, visited.trans visited2⟩, isResult, bound, fun quiet =>
              all (visited.worked.same.quiet quiet)⟩
          · rintro error s2 ⟨isIo, loud, own2, visited2⟩
            exact ⟨isIo, visited.worked.same.not_quiet loud, own2,
              visited.trans visited2⟩
        · rintro error s1 ⟨isIo, loud, visited⟩
          refine .ite (fun _ => .pure ?_) fun _ => .throw ⟨isIo, loud, visited⟩
          exact ⟨visited, isOut, less, fun quiet => absurd quiet loud⟩
      · exact .pure ⟨⟨own, .refl inv file⟩, isOut, less, fun _ => by omega⟩

/-- A part of the contents of a file. -/
theorem Format.slice_fileBytes (F : Format) (image : Image) (cells : List Nat)
    {offset count size : Nat} (inside : offset + count ≤ size) :
    ((F.fileBytes image cells size).drop offset).take count =
      (List.range count).map fun index => F.byteAt image cells (offset + index) := by
  apply List.ext_getElem
  · simp only [List.length_take, List.length_drop, length_fileBytes,
      List.length_map, List.length_range]
    omega
  · intro index _ _
    simp [fileBytes]

/-- What `fs_read` delivers, as a part of the contents of the file. -/
def ReadBytes (F : Format) (s : Fs) (own : Ownership) (file : FileRef)
    (offset count : Nat) (bytes : List UInt8) : Prop :=
  ∃ length, length ≤ min (min count maxIo) ((s.files file).size - offset) ∧
    (s.Quiet → length = min (min count maxIo) ((s.files file).size - offset)) ∧
    bytes = ((F.fileBytes s.image (chainOf s own file)
      (s.files file).size).drop offset).take length

theorem fsRead_spec {offset count : Nat} (inv : Inv F live s own)
    (spare : own .spare = []) (isLive : live file) :
    Meets (fsRead file offset count) s
      (fun bytes s' => (∃ own', Visited F live file s s' own own') ∧
        ReadBytes F s own file offset count bytes)
      fun error s' => error = .io ∧ ¬ s.Quiet ∧
        ∃ own', Visited F live file s s' own own' := by
  have size := (inv.handles.opened file isLive).size
  have visited : Visited F live file s s own own := .refl inv file
  unfold fsRead
  refine (requireMounted_spec inv.mounted).seq ?_ fun _ _ => False.elim
  rintro _ s0 rfl
  refine .bind (.get (.ite (fun nothing => ?_) fun some => ?_))
  · refine .pure ⟨⟨own, visited⟩, 0, Nat.zero_le _, fun _ => ?_, by simp⟩
    simp only [maxIo]
    omega
  · have fits : offset + min (min count maxIo) ((s0.files file).size - offset) ≤
        (s0.files file).size := by omega
    refine (readLoop_spec _ inv spare isLive (Nat.le_trans fits size) rfl
      (Nat.zero_le _) (by simp)).mono ?_ fun _ _ failed => failed
    rintro bytes s1 ⟨visited1, isBytes, bound, all⟩
    refine ⟨visited1, bytes.length, bound, all, ?_⟩
    rw [F.slice_fileBytes _ _ (by omega)]
    exact isBytes

/-! ## Writing -/

/-- Writes to a cluster of an open file. -/
theorem Worked.scribbled {Here : Nat → Prop} {cluster : Nat}
    (inv : Inv F live s own) (isLive : live file)
    (scribbled : Scribbled Here s s')
    (inside : ∀ sector, Here sector → F.InCluster cluster sector)
    (member : cluster ∈ chainOf s own file) :
    Worked F live file s s' own own ∧ chainOf s' own file = chainOf s own file := by
  have opened := inv.handles.opened file isLive
  have notRoot := ownerOf_ne_root s.image file (s.files file)
  have isPrivate := inv.private_cluster member notRoot
  have positive := (inv.accounted.bounds _ cluster member).1
  have smaller := scribbled.mono inside
  have dirSame : ∀ location, F.InDir (own .root) location →
      s'.image location.sector = s.image location.sector :=
    fun location inDir => smaller.image_eq _ (isPrivate.dir inv.root_pos inDir)
  have owner : ownerOf s'.image file (s'.files file) =
      ownerOf s.image file (s.files file) := by
    rw [scribbled.files]
    exact ownerOf_congr file (alike_of_eq (entryOf_congr
      (dirSame _ opened.holds.inDir)))
  have chain : chainOf s' own file = chainOf s own file := by
    unfold chainOf
    rw [owner]
  refine ⟨⟨inv.scribbled smaller isPrivate, scribbled.same, scribbled.iters, ?_, ?_,
    ?_, ?_, rfl, rfl, fun _ _ => rfl, dirSame, ?_, ?_⟩, chain⟩
  · exact fun other _ => by rw [scribbled.files]
  · rw [scribbled.files]
  · rw [scribbled.files]
  · rw [scribbled.files]
    exact Or.inl rfl
  · simp only [chain, List.prefix_rfl]
  · intro location different
    constructor
    case holds => exact Directory.holds_congr (dirSame location)
    case entry => exact fun held => entryOf_congr (dirSame location held.inDir)
    case chain => rfl
    case data =>
      intro other isOther sector here
      apply smaller.image_eq
      intro there
      have otherPositive := (inv.accounted.bounds _ other isOther).1
      have equal := F.inCluster_unique otherPositive positive here there
      subst equal
      have owners := inv.accounted.chains.apart _ _ other isOther member
      rcases ownerOf_cases s.image file (s.files file) with ⟨is, _⟩ | ⟨is, _⟩
      · rw [is] at owners
        injection owners with equal
        exact different equal
      · rw [is] at owners
        cases owners

/-- Bytes from `source` were written to positions of the open file. -/
structure Wrote (F : Format) (file : FileRef) (s s' : Fs)
    (own own' : Ownership) (position count : Nat) (source : Nat → UInt8) :
    Prop where
  inside : position + count ≤ (chainOf s' own' file).length * F.clusterBytes
  new : ∀ index, index < count →
    F.byteAt s'.image (chainOf s' own' file) (position + index) = source index
  old : ∀ other, other < (chainOf s own file).length * F.clusterBytes →
    other < position ∨ position + count ≤ other →
    F.byteAt s'.image (chainOf s' own' file) other =
      F.byteAt s.image (chainOf s own file) other
  length : (chainOf s' own' file).length ≤
    max (chainOf s own file).length (F.keeps (position + count))

theorem Wrote.nothing (source : Nat → UInt8) {position : Nat}
    (inside : position ≤ (chainOf s own file).length * F.clusterBytes) :
    Wrote F file s s own own position 0 source :=
  ⟨inside, fun _ impossible => absurd impossible (Nat.not_lt_zero _),
    fun _ _ _ => rfl, Nat.le_max_left _ _⟩

theorem Wrote.trans {position count more : Nat} {source : Nat → UInt8}
    (worked : Worked F live file s s' own own')
    (first : Wrote F file s s' own own' position count source)
    (second : Wrote F file s' s'' own' own'' (position + count) more
      fun index => source (count + index)) :
    Wrote F file s s'' own own'' position (count + more) source where
  inside := by
    have inside := second.inside
    omega
  new index less := by
    by_cases early : index < count
    · rw [second.old (position + index) (by have inside := first.inside; omega)
        (by omega)]
      exact first.new index early
    · have written := second.new (index - count) (by omega)
      have place : position + count + (index - count) = position + index := by omega
      have source' : count + (index - count) = index := by omega
      rw [place, source'] at written
      exact written
  old other inside outside := by
    have longer := Nat.mul_le_mul_right F.clusterBytes worked.grows.length_le
    rw [second.old other (by omega) (by omega)]
    exact first.old other inside (by omega)
  length := by
    have firstLength := first.length
    have secondLength := second.length
    have mono := F.keeps_mono (Nat.le_add_right (position + count) more)
    rw [← Nat.add_assoc]
    omega

/-- The walk to a cluster of the file leaves its bytes alone. -/
theorem Positioned.byteAt_eq {index : Nat}
    (positioned : Positioned F live file s s' own own' index) {other : Nat}
    (inside : other < (chainOf s own file).length * F.clusterBytes) :
    F.byteAt s'.image (chainOf s' own' file) other =
      F.byteAt s.image (chainOf s own file) other :=
  Format.byteAt_congr positioned.worked.grows inside fun _ _ sector here =>
    positioned.image_eq sector (F.fat_lt_of_inCluster here)

/-- A byte outside the sectors that were written. -/
theorem Format.byteAt_outside {image image' : Image} {cells : List Nat}
    {cluster index other : Nat} {Here : Nat → Prop} (nodup : cells.Nodup)
    (positive : ∀ cell ∈ cells, 1 ≤ cell)
    (here : cells[index]? = some cluster)
    (inside : other < cells.length * F.clusterBytes)
    (inCluster : ∀ sector, Here sector → F.InCluster cluster sector)
    (same : ∀ sector, ¬ Here sector → image' sector = image sector)
    (away : other / F.clusterBytes = index →
      ¬ Here (F.sectorOf cluster + F.sectorIn other)) :
    F.byteAt image' cells other = F.byteAt image cells other := by
  have inChain : other / F.clusterBytes < cells.length :=
    (Nat.div_lt_iff_lt_mul F.clusterBytes_pos).mpr inside
  have cell := List.getElem?_eq_getElem inChain
  have member := List.getElem_mem inChain
  generalize cells[other / F.clusterBytes] = mine at cell member
  rw [Format.byteAt_of_cell cell, Format.byteAt_of_cell cell]
  congr 1
  apply same
  by_cases equal : other / F.clusterBytes = index
  · have isCluster : mine = cluster := by
      rw [equal, here] at cell
      exact (Option.some.inj cell).symm
    rw [isCluster]
    exact away equal
  · intro written
    have there := inCluster _ written
    have sameCluster := F.inCluster_unique (positive _ member)
      (positive _ (List.mem_of_getElem? here)) (F.inCluster_sectorIn _ other) there
    apply equal
    rw [← sameCluster, ← cell] at here
    exact (List.getElem?_inj inChain nodup).mp here.symm

/-- The chain of an open file has no cluster twice, and all are clusters. -/
theorem Inv.chainOf_nodup (inv : Inv F live s own) (file : FileRef) :
    (chainOf s own file).Nodup :=
  Linked.nodup (inv.accounted.chains.linked _)

theorem Inv.chainOf_pos (inv : Inv F live s own) (file : FileRef) :
    ∀ cell ∈ chainOf s own file, 1 ≤ cell :=
  fun cell member => (inv.accounted.bounds _ cell member).1

/-- A position is a cluster, a sector and a byte. -/
theorem Format.position_eq (F : Format) (position : Nat) :
    position = F.clusterBytes * (position / F.clusterBytes) +
      F.sectorIn position * sectorSize + position % sectorSize := by
  have outer := Nat.div_add_mod position F.clusterBytes
  have inner : F.sectorIn position * sectorSize + position % sectorSize =
      position % F.clusterBytes := by
    rw [← F.mod_clusterBytes_mod position]
    exact Nat.div_add_mod' _ _
  omega

/-- A write that stays within its cluster stays within the chain. -/
theorem Format.inside_chain {position count length : Nat}
    (index : position / F.clusterBytes < length)
    (fits : F.sectorIn position * sectorSize + position % sectorSize + count ≤
      F.clusterBytes) :
    position + count ≤ length * F.clusterBytes := by
  have place := F.position_eq position
  have more : F.clusterBytes * (position / F.clusterBytes + 1) ≤
      length * F.clusterBytes := by
    rw [Nat.mul_comm length]
    exact Nat.mul_le_mul_left _ index
  rw [Nat.mul_add, Nat.mul_one] at more
  omega

/-- Whole sectors of the cluster under the cursor were written. -/
theorem Wrote.sectors {position sectors : Nat} {source : Nat → UInt8}
    (inv : Inv F live s own) (isLive : live file)
    (here : (chainOf s own file)[position / F.clusterBytes]? =
      some (s.files file).cursorCluster)
    (aligned : position % sectorSize = 0)
    (start : position % F.clusterBytes = F.sectorIn position * sectorSize)
    (fits : F.sectorIn position + sectors ≤ 2 ^ F.shift)
    (scribbled : Scribbled (InRun (F.sectorOf (s.files file).cursorCluster +
      F.sectorIn position) sectors) s s')
    (stored : ∀ index, index < sectors →
      s'.image (F.sectorOf (s.files file).cursorCluster + F.sectorIn position +
        index) = fun byte => source (index * sectorSize + byte.val)) :
    Worked F live file s s' own own ∧
      Wrote F file s s' own own position (sectors * sectorSize) source := by
  have inCluster : ∀ sector, InRun (F.sectorOf (s.files file).cursorCluster +
      F.sectorIn position) sectors sector →
      F.InCluster (s.files file).cursorCluster sector := by
    intro sector inRun
    simp only [InRun, Format.InCluster] at *
    omega
  rcases Worked.scribbled inv isLive scribbled inCluster
    (List.mem_of_getElem? here) with ⟨worked, chain⟩
  have index := (List.getElem?_eq_some_iff.mp here).1
  have bytes := Nat.mul_le_mul_right sectorSize fits
  rw [← F.clusterBytes_eq, Nat.add_mul] at bytes
  refine ⟨worked, ?_, ?_, ?_, by rw [chain]; exact Nat.le_max_left _ _⟩
  · rw [chain]
    exact Format.inside_chain index (by omega)
  · intro byte less
    have quotient : byte / sectorSize < sectors :=
      (Nat.div_lt_iff_lt_mul (by decide)).mpr less
    have remainder := Nat.mod_lt byte (show 0 < sectorSize by decide)
    rw [chain, Format.byteAt_sectors here aligned start fits less,
      stored _ quotient]
    simp only [Block.byteAt, dif_pos (show byte % sectorSize < 512 from remainder)]
    rw [Nat.div_add_mod']
  · intro other inside outside
    rw [chain]
    refine Format.byteAt_outside (inv.chainOf_nodup file) (inv.chainOf_pos file)
      here inside inCluster scribbled.image_eq ?_
    intro sameCluster inRun
    have place := F.position_eq position
    have otherPlace := F.position_eq other
    have remainder := Nat.mod_lt other (show 0 < sectorSize by decide)
    rw [sameCluster] at otherPlace
    simp only [InRun, sectorSize] at *
    omega

/-- A part of one sector of the cluster under the cursor was written. -/
theorem Wrote.chunk {position : Nat} (length : Nat) (source : Nat → UInt8)
    (inv : Inv F live s own) (isLive : live file)
    (here : (chainOf s own file)[position / F.clusterBytes]? =
      some (s.files file).cursorCluster)
    (fits : position % sectorSize + length ≤ sectorSize)
    (scribbled : Scribbled (· = F.sectorOf (s.files file).cursorCluster +
      F.sectorIn position) s s')
    (stored : s'.image (F.sectorOf (s.files file).cursorCluster +
        F.sectorIn position) =
      (s.image (F.sectorOf (s.files file).cursorCluster +
        F.sectorIn position)).copyInto (position % sectorSize) length source) :
    Worked F live file s s' own own ∧
      Wrote F file s s' own own position length source := by
  have inCluster : ∀ sector, sector = F.sectorOf (s.files file).cursorCluster +
      F.sectorIn position → F.InCluster (s.files file).cursorCluster sector := by
    rintro sector rfl
    exact F.inCluster_sectorIn _ position
  rcases Worked.scribbled inv isLive scribbled inCluster
    (List.mem_of_getElem? here) with ⟨worked, chain⟩
  have index := (List.getElem?_eq_some_iff.mp here).1
  have bytes := Nat.mul_le_mul_right sectorSize
    (Nat.succ_le_of_lt (F.sectorIn_lt position))
  rw [← F.clusterBytes_eq, Nat.succ_mul] at bytes
  refine ⟨worked, ?_, ?_, ?_, by rw [chain]; exact Nat.le_max_left _ _⟩
  · rw [chain]
    exact Format.inside_chain index (by omega)
  · intro byte less
    have inBlock : position % sectorSize + byte < 512 :=
      Nat.lt_of_lt_of_le (Nat.add_lt_add_left less _) fits
    rw [chain, Format.byteAt_chunk here inBlock, stored,
      Block.byteAt_copyInto_inside (Nat.le_add_right _ _)
        (Nat.add_lt_add_left less _) inBlock, Nat.add_sub_cancel_left]
  · intro other inside outside
    rw [chain]
    by_cases sameSector : other / F.clusterBytes = position / F.clusterBytes ∧
        F.sectorIn other = F.sectorIn position
    · have place := F.position_eq position
      have otherPlace := F.position_eq other
      have cell := here
      rw [← sameSector.1] at cell
      rw [Format.byteAt_of_cell cell, Format.byteAt_of_cell cell, sameSector.2,
        stored, Block.byteAt_copyInto_outside]
      rw [sameSector.1, sameSector.2] at otherPlace
      omega
    · refine Format.byteAt_outside (inv.chainOf_nodup file) (inv.chainOf_pos file)
        here inside inCluster scribbled.image_eq ?_
      intro sameCluster equal
      exact sameSector ⟨sameCluster, by omega⟩

/-- A round that wrote after a walk. -/
theorem Wrote.since {position count : Nat} {source : Nat → UInt8}
    (positioned : Positioned F live file s s' own own' (position / F.clusterBytes))
    (some : 0 < count)
    (wrote : Wrote F file s' s'' own' own'' position count source) :
    Wrote F file s s'' own own'' position count source where
  inside := wrote.inside
  new := wrote.new
  old other inside outside := by
    have longer := Nat.mul_le_mul_right F.clusterBytes
      positioned.worked.grows.length_le
    rw [wrote.old other (by omega) outside]
    exact positioned.byteAt_eq inside
  length := by
    have reached := positioned.length
    have written := wrote.length
    have less := F.index_lt_keeps (Nat.lt_add_of_pos_right some : position < position + count)
    omega

/-- No cluster is free and the file has none from `position` on. -/
structure Exhausted (F : Format) (s : Fs) (own : Ownership) (file : FileRef)
    (position : Nat) : Prop where
  full : Full F s.image
  reached : (chainOf s own file).length * F.clusterBytes ≤ position

/-- How many bytes a round of the loop of `write_impl` stores. -/
def pieceLength (s : Fs) (position remaining : Nat) : Nat :=
  if position % sectorSize = 0 ∧ remaining ≥ sectorSize then
    wholeSectors s position remaining * sectorSize
  else chunkLength position remaining

/-- The cursor keeps its place when only the cache of the FAT changed. -/
theorem Positioned.unmoved {index : Nat} (isLive : live file)
    (positioned : Positioned F live file s s' own own' index)
    (moved : Moved s' s'' s'.image) : Positioned F live file s s'' own own' index := by
  have inv := positioned.worked.inv
  have visited : Visited F live file s' s'' own' own' :=
    .ofFatOnly (inv.handles.opened file isLive) (inv.unmoved moved) (.ofUnmoved moved)
  refine ⟨positioned.worked.trans visited.worked, ?_, ?_, ?_, ?_⟩
  · rw [visited.chain, moved.files]
    exact positioned.here
  · intro sector outside
    rw [moved.image_eq]
    exact positioned.image_eq sector outside
  · rw [visited.chain]
    exact positioned.chain
  · rw [visited.chain]
    exact positioned.length

/-- The branch of `writeRound` that stores whole sectors. -/
theorem Positioned.storeSectors {position count : Nat} (source : Nat → UInt8)
    (isLive : live file)
    (positioned : Positioned F live file s s' own own' (position / F.clusterBytes))
    (aligned : position % sectorSize = 0) (some : 0 < count)
    (start : position % F.clusterBytes = F.sectorIn position * sectorSize)
    (fits : F.sectorIn position + count ≤ 2 ^ F.shift) :
    Meets (do
        blocksWrite .data
          (F.sectorOf (s'.files file).cursorCluster + F.sectorIn position)
          ((List.range count).map fun index =>
            fun byte => source (index * sectorSize + byte))
        return count * sectorSize) s'
      (fun stored s'' => stored = count * sectorSize ∧
        Worked F live file s s'' own own' ∧
        Wrote F file s s'' own own' position stored source)
      fun error s'' => error = .io ∧ ¬ s.Quiet ∧ Worked F live file s s'' own own' := by
  have inv := positioned.worked.inv
  have here := positioned.here
  rcases positioned.sector_bounds position with ⟨_, beyond, bound⟩
  have apart : ∀ other, InRun (F.sectorOf (s'.files file).cursorCluster +
      F.sectorIn position) count other → s'.fatCacheSector ≠ other := by
    intro other inRun
    simp only [InRun] at inRun
    apply inv.coherent.cache_ne inv.geometry
    · rw [inv.sb]
      omega
    · rw [inv.sb]
      omega
  refine (blocksWrite_spec .data _ inv.geometry inv.coherent
    (by rw [List.length_map, List.length_range]; exact apart)
    (by rw [inv.sb, List.length_map, List.length_range]; omega)).seq ?_ ?_
  · rintro _ s2 ⟨scribbled, stored⟩
    rw [List.length_map, List.length_range] at scribbled
    have stored' : ∀ index, index < count → s2.image
        (F.sectorOf (s'.files file).cursorCluster + F.sectorIn position + index) =
          fun byte => source (index * sectorSize + byte.val) :=
      fun index inRange => stored index _ (by simp [inRange])
    rcases Wrote.sectors inv isLive here aligned start fits scribbled stored'
      with ⟨worked, wrote⟩
    have positive : 0 < count * sectorSize := by
      simp only [sectorSize]
      omega
    exact .pure ⟨rfl, positioned.worked.trans worked, wrote.since positioned positive⟩
  · rintro error s2 ⟨isIo, loud, scribbled⟩
    rw [List.length_map, List.length_range] at scribbled
    have inCluster : ∀ sector, InRun (F.sectorOf (s'.files file).cursorCluster +
        F.sectorIn position) count sector →
        F.InCluster (s'.files file).cursorCluster sector := by
      intro sector inRun
      simp only [InRun, Format.InCluster] at *
      omega
    have worked := (Worked.scribbled inv isLive scribbled inCluster
      (List.mem_of_getElem? here)).1
    exact ⟨isIo, positioned.worked.same.not_quiet loud, positioned.worked.trans worked⟩

/-- The branch of `writeRound` that stores a part of one sector. -/
theorem Positioned.storeChunk {position length : Nat} (source : Nat → UInt8)
    (isLive : live file)
    (positioned : Positioned F live file s s' own own' (position / F.clusterBytes))
    (some : 0 < length) (fits : position % sectorSize + length ≤ sectorSize) :
    Meets (do
        let block ← blockRead
          (F.sectorOf (s'.files file).cursorCluster + F.sectorIn position)
        blockWrite .data
          (F.sectorOf (s'.files file).cursorCluster + F.sectorIn position)
          (block.copyInto (position % sectorSize) length source)
        return length) s'
      (fun stored s'' => stored = length ∧ Worked F live file s s'' own own' ∧
        Wrote F file s s'' own own' position stored source)
      fun error s'' => error = .io ∧ ¬ s.Quiet ∧ Worked F live file s s'' own own' := by
  have inv := positioned.worked.inv
  have less := F.sectorIn_lt position
  rcases positioned.sector_bounds position with ⟨_, beyond, bound⟩
  refine (blockRead_image inv.geometry inv.coherent (by rw [inv.sb]; omega)
    (by rw [inv.sb]; omega)).seq ?_ ?_
  · rintro block s2 ⟨rfl, moved⟩
    have positioned2 := positioned.unmoved isLive moved
    have inv2 := positioned2.worked.inv
    have here2 := positioned2.here
    rw [← moved.files, ← moved.image_eq]
    refine (blockWrite_scribbled inv2.geometry inv2.coherent
      (· = F.sectorOf (s2.files file).cursorCluster + F.sectorIn position)
      .data _ (by rw [moved.files])
      (inv2.coherent.cache_ne inv2.geometry
        (by rw [inv2.sb, moved.files]; omega)
        (by rw [inv2.sb, moved.files]; omega))
      (by rw [inv2.sb, moved.files]; omega)).seq ?_ ?_
    · rintro _ s3 ⟨scribbled, image, _, _⟩
      rcases Wrote.chunk length source inv2 isLive here2 fits scribbled
        (by rw [image]; simp) with ⟨worked, wrote⟩
      exact .pure ⟨rfl, positioned2.worked.trans worked, wrote.since positioned2 some⟩
    · rintro error s3 ⟨isIo, loud, scribbled, _⟩
      have worked := (Worked.scribbled inv2 isLive scribbled
        (by rintro sector rfl; exact F.inCluster_sectorIn _ position)
        (List.mem_of_getElem? here2)).1
      exact ⟨isIo, positioned2.worked.same.not_quiet loud,
        positioned2.worked.trans worked⟩
  · rintro error s2 ⟨isIo, loud, moved⟩
    exact ⟨isIo, positioned.worked.same.not_quiet loud,
      (positioned.unmoved isLive moved).worked⟩

theorem writeRound_spec {position remaining : Nat} {source : Nat → UInt8}
    (inv : Inv F live s own) (spare : own .spare = []) (isLive : live file)
    (inside : position ≤ (chainOf s own file).length * F.clusterBytes)
    (positive : 0 < remaining) :
    Meets (writeRound file position source remaining) s
      (fun stored s' => stored = pieceLength s position remaining ∧ 0 < stored ∧
        stored ≤ remaining ∧ ∃ own', Worked F live file s s' own own' ∧
          Wrote F file s s' own own' position stored source)
      fun error s' => ∃ own', Worked F live file s s' own own' ∧
        (error = .io ∧ ¬ s.Quiet ∨ error = .nospc ∧
          Exhausted F s' own' file position ∧ Visited F live file s s' own own') := by
  have opened := inv.handles.opened file isLive
  have enough : position / F.clusterBytes < (chainOf s own file).length ∨
      true = true ∧ position / F.clusterBytes = (chainOf s own file).length := by
    have most := Nat.div_le_div_right (c := F.clusterBytes) inside
    rw [Nat.mul_div_cancel _ F.clusterBytes_pos] at most
    rcases Nat.lt_or_eq_of_le most with less | equal
    · exact Or.inl less
    · exact Or.inr ⟨rfl, equal⟩
  unfold writeRound
  refine .bind (.get ?_)
  rw [inv.clusterBytes_eq]
  refine (fileReach_spec inv spare isLive enough).seq ?_ ?_
  · rintro _ s1 ⟨own1, positioned⟩
    rcases positioned.sector_bounds position with ⟨sector, _, _⟩
    refine .bind (.get ?_)
    dsimp only
    rw [sector]
    refine .ite (fun whole => ?_) fun part => ?_
    · rcases F.wholeSectors_bounds whole.1 whole.2 with ⟨some, fewer, fits, start⟩
      have piece : pieceLength s position remaining =
          min (remaining / sectorSize) (2 ^ F.shift - F.sectorIn position) * sectorSize := by
        rw [pieceLength, if_pos whole, inv.wholeSectors_eq]
      rw [positioned.worked.inv.wholeSectors_eq, piece]
      refine (positioned.storeSectors source isLive whole.1 some start fits).mono ?_ ?_
      · rintro _ s2 ⟨rfl, worked, wrote⟩
        have positive : 0 < min (remaining / sectorSize)
            (2 ^ F.shift - F.sectorIn position) * sectorSize :=
          Nat.mul_pos some (by decide)
        exact ⟨rfl, positive, fewer, own1, worked, wrote⟩
      · rintro error s2 ⟨isIo, loud, worked⟩
        exact ⟨own1, worked, Or.inl ⟨isIo, loud⟩⟩
    · have inSector := Nat.mod_lt position (show 0 < sectorSize by decide)
      have some : 0 < chunkLength position remaining := by
        simp only [chunkLength]
        omega
      refine (positioned.storeChunk source isLive some
        (by simp only [chunkLength]; omega)).mono ?_ ?_
      · rintro _ s2 ⟨rfl, worked, wrote⟩
        refine ⟨(if_neg part).symm, some, ?_, own1, worked, wrote⟩
        simp only [chunkLength]
        omega
      · rintro error s2 ⟨isIo, loud, worked⟩
        exact ⟨own1, worked, Or.inl ⟨isIo, loud⟩⟩
  · rintro error s1 failed
    have visited : Visited F live file s s1 own own :=
      .ofFatOnly opened failed.inv failed.only
    refine ⟨own, visited.worked, failed.why.imp_right ?_⟩
    rintro ⟨isFull, missing, full⟩
    refine ⟨isFull, ⟨full, ?_⟩, visited⟩
    rw [visited.chain]
    exact (Nat.le_div_iff_mul_le F.clusterBytes_pos).mp missing

/-- What the loop of `write_impl` did after `done` bytes. -/
structure Looped (F : Format) (live : FileRef → Prop) (file : FileRef)
    (s s' : Fs) (own own' : Ownership) (offset count done : Nat)
    (source : Nat → UInt8) (result : Nat × Option FsError) : Prop where
  worked : Worked F live file s s' own own'
  lower : done ≤ result.1
  upper : result.1 ≤ count
  inside : offset + result.1 ≤ (chainOf s' own' file).length * F.clusterBytes
  wrote : s.Quiet → Wrote F file s s' own own' (offset + done) (result.1 - done)
    fun index => source (done + index)
  complete : result.2 = none → result.1 = count
  piece : done < result.1 → done + pieceLength s (offset + done) (count - done) ≤ result.1
  why : ∀ error, result.2 = some error →
    error = .io ∧ ¬ s.Quiet ∨
      error = .nospc ∧ Exhausted F s' own' file (offset + result.1)

theorem Looped.after {offset count done stored : Nat} {source : Nat → UInt8}
    {result : Nat × Option FsError}
    (worked : Worked F live file s s' own own')
    (wrote : Wrote F file s s' own own' (offset + done) stored
      fun index => source (done + index))
    (isPiece : stored = pieceLength s (offset + done) (count - done))
    (looped : Looped F live file s' s'' own' own'' offset count (done + stored)
      source result) :
    Looped F live file s s'' own own'' offset count done source result where
  worked := worked.trans looped.worked
  lower := Nat.le_trans (Nat.le_add_right _ _) looped.lower
  upper := looped.upper
  inside := looped.inside
  wrote quiet := by
    have lower := looped.lower
    have next := looped.wrote (worked.same.quiet quiet)
    have length : result.1 - done = stored + (result.1 - (done + stored)) := by omega
    rw [length]
    apply wrote.trans worked
    simp only [← Nat.add_assoc] at next ⊢
    exact next
  complete := looped.complete
  piece _ := by
    rw [← isPiece]
    exact looped.lower
  why error isError := by
    rcases looped.why error isError with ⟨isIo, loud⟩ | full
    · exact Or.inl ⟨isIo, worked.same.not_quiet loud⟩
    · exact Or.inr full

theorem writeLoop_spec {offset count : Nat} {source : Nat → UInt8}
    (rounds : Nat) :
    ∀ {s : Fs} {own : Ownership} {done : Nat}, Inv F live s own →
    own .spare = [] → live file →
    offset + done ≤ (chainOf s own file).length * F.clusterBytes →
    done ≤ count → count ≤ done + rounds →
    Meets (writeLoop file offset source count rounds done) s
      (fun result s' => ∃ own', Looped F live file s s' own own' offset count
        done source result)
      fun _ _ => False := by
  induction rounds with
  | zero =>
      intro s own done inv _ _ inside less enough
      refine .pure ⟨own, .refl inv file, Nat.le_refl _, less, inside, fun _ => ?_,
        fun _ => by dsimp only; omega, fun impossible => absurd impossible (Nat.lt_irrefl _),
        fun _ impossible => by cases impossible⟩
      rw [Nat.sub_self]
      exact .nothing _ inside
  | succ rounds induction =>
      intro s own done inv spare isLive inside less enough
      unfold writeLoop
      refine .ite (fun more => ?_) fun finished => ?_
      · refine .bind (.attempt ((writeRound_spec inv spare isLive inside
          (by omega)).mono ?_ ?_))
        · rintro stored s1 ⟨isPiece, positive, bounded, own1, worked, wrote⟩
          have inside1 := wrote.inside
          refine (induction worked.inv (worked.spare.trans spare) isLive
            (by omega) (by omega) (by omega)).mono ?_ fun _ _ failed => failed
          rintro result s2 ⟨own2, looped⟩
          exact ⟨own2, looped.after worked wrote isPiece⟩
        · rintro error s1 ⟨own1, worked, why⟩
          have longer := Nat.mul_le_mul_right F.clusterBytes worked.grows.length_le
          refine .pure ⟨own1, worked, Nat.le_refl _, less, by dsimp only; omega,
            fun quiet => ?_, nofun, fun impossible => absurd impossible (Nat.lt_irrefl _), ?_⟩
          · rw [Nat.sub_self]
            rcases why with ⟨_, loud⟩ | ⟨_, _, visited⟩
            · exact absurd quiet loud
            · exact ⟨by omega, fun _ impossible =>
                absurd impossible (Nat.not_lt_zero _),
                fun other _ _ => visited.byteAt_eq other,
                by rw [visited.chain]; exact Nat.le_max_left _ _⟩
          · intro other isOther
            injection isOther with equal
            subst equal
            exact why.imp_right fun full => ⟨full.1, full.2.1⟩
      · refine .pure ⟨own, .refl inv file, Nat.le_refl _, less, inside,
          fun _ => ?_, fun _ => by dsimp only; omega,
          fun impossible => absurd impossible (Nat.lt_irrefl _),
          fun _ impossible => by cases impossible⟩
        rw [Nat.sub_self]
        exact .nothing _ inside

end Transfer

end Katela.Filesystem
