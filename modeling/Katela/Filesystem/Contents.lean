import Katela.Filesystem.Reach

/-! # The bytes of a file

A position in a file is a cluster of its chain, a sector of the cluster and a
byte of the sector. `fs_read` and `write_impl` move whole sectors where they
can and parts of a sector otherwise; both are described by the positions they
cover. -/

namespace Katela.Filesystem

/-! ## Positions -/

namespace Format

variable (F : Format)

theorem clusterBytes_eq : F.clusterBytes = 2 ^ F.shift * sectorSize := by
  rw [clusterBytes, Nat.pow_add]
  rfl

theorem clusterBytes_pos : 0 < F.clusterBytes := Nat.two_pow_pos _

/-- How many clusters a file of the given size needs. -/
def keeps (target : Nat) : Nat :=
  target / F.clusterBytes + (if target % F.clusterBytes ≠ 0 then 1 else 0)

theorem le_keeps (target : Nat) :
    target ≤ F.keeps target * F.clusterBytes := by
  have split := Nat.div_add_mod target F.clusterBytes
  have inside := Nat.mod_lt target F.clusterBytes_pos
  unfold keeps
  rw [Nat.add_mul, Nat.mul_comm]
  split <;> omega

theorem keeps_le {target length : Nat}
    (inside : target ≤ length * F.clusterBytes) : F.keeps target ≤ length := by
  have most := Nat.div_le_div_right (c := F.clusterBytes) inside
  rw [Nat.mul_div_cancel _ F.clusterBytes_pos] at most
  unfold keeps
  split
  · rename_i rest
    have split := Nat.div_add_mod target F.clusterBytes
    by_contra more
    have equal : target / F.clusterBytes = length := by omega
    rw [equal, Nat.mul_comm] at split
    omega
  · omega

theorem keeps_mono {target more : Nat} (less : target ≤ more) :
    F.keeps target ≤ F.keeps more :=
  F.keeps_le (less.trans (F.le_keeps more))

/-- The cluster of a position below the size. -/
theorem index_lt_keeps {position target : Nat} (less : position < target) :
    position / F.clusterBytes < F.keeps target := by
  apply (Nat.div_lt_iff_lt_mul F.clusterBytes_pos).mpr
  exact Nat.lt_of_lt_of_le less (F.le_keeps target)

/-- The sector of its cluster that holds a position. -/
def sectorIn (position : Nat) : Nat := position % F.clusterBytes / sectorSize

theorem sectorIn_lt (position : Nat) : F.sectorIn position < 2 ^ F.shift := by
  have inside := Nat.mod_lt position F.clusterBytes_pos
  rw [F.clusterBytes_eq] at inside
  unfold sectorIn
  rw [F.clusterBytes_eq]
  exact (Nat.div_lt_iff_lt_mul (by decide)).mpr inside

/-- The byte at a position of the file with the given clusters. -/
def byteAt (image : Image) (cells : List Nat) (position : Nat) : UInt8 :=
  (image (F.sectorOf (cells.getD (position / F.clusterBytes) 0) +
    F.sectorIn position)).byteAt (position % sectorSize)

/-- The contents of a file. -/
def fileBytes (image : Image) (cells : List Nat) (size : Nat) : List UInt8 :=
  (List.range size).map (F.byteAt image cells)

variable {F}

theorem byteAt_of_cell {image : Image} {cells : List Nat} {position cluster : Nat}
    (here : cells[position / F.clusterBytes]? = some cluster) :
    F.byteAt image cells position =
      (image (F.sectorOf cluster + F.sectorIn position)).byteAt
        (position % sectorSize) := by
  unfold byteAt
  rw [List.getD_eq_getElem?_getD, here]
  rfl

theorem inCluster_sectorIn (cluster position : Nat) :
    F.InCluster cluster (F.sectorOf cluster + F.sectorIn position) :=
  ⟨Nat.le_add_right _ _, Nat.add_lt_add_left (F.sectorIn_lt position) _⟩

/-- Bytes stay when the clusters and their sectors do. -/
theorem byteAt_congr {image image' : Image} {cells cells' : List Nat}
    {position : Nat} (grows : cells <+: cells')
    (inside : position < cells.length * F.clusterBytes)
    (same : ∀ cluster ∈ cells, ∀ sector, F.InCluster cluster sector →
      image' sector = image sector) :
    F.byteAt image' cells' position = F.byteAt image cells position := by
  have index : position / F.clusterBytes < cells.length :=
    (Nat.div_lt_iff_lt_mul F.clusterBytes_pos).mpr inside
  have here := List.getElem?_eq_getElem index
  have here' : cells'[position / F.clusterBytes]? =
      some cells[position / F.clusterBytes] := by
    rcases grows with ⟨more, equal⟩
    rw [← equal, List.getElem?_append_left index]
    exact here
  rw [byteAt_of_cell here, byteAt_of_cell here']
  rw [same _ (List.getElem_mem index) _ (inCluster_sectorIn _ position)]

theorem fileBytes_congr {image image' : Image} {cells cells' : List Nat}
    {size : Nat} (grows : cells <+: cells')
    (inside : size ≤ cells.length * F.clusterBytes)
    (same : ∀ cluster ∈ cells, ∀ sector, F.InCluster cluster sector →
      image' sector = image sector) :
    F.fileBytes image' cells' size = F.fileBytes image cells size := by
  apply List.map_congr_left
  intro position member
  rw [List.mem_range] at member
  exact byteAt_congr grows (Nat.lt_of_lt_of_le member inside) same

@[simp] theorem length_fileBytes (image : Image) (cells : List Nat) (size : Nat) :
    (F.fileBytes image cells size).length = size := by
  simp [fileBytes]

/-- Positions close enough are in the same cluster. -/
theorem position_add {position index : Nat}
    (inside : position % F.clusterBytes + index < F.clusterBytes) :
    (position + index) / F.clusterBytes = position / F.clusterBytes ∧
      (position + index) % F.clusterBytes =
        position % F.clusterBytes + index := by
  have split := Nat.div_add_mod position F.clusterBytes
  have shape : position + index =
      position % F.clusterBytes + index +
        F.clusterBytes * (position / F.clusterBytes) := by omega
  rw [shape, Nat.add_mul_div_left _ _ F.clusterBytes_pos, Nat.add_mul_mod_self_left,
    Nat.div_eq_of_lt inside, Nat.mod_eq_of_lt inside]
  simp

/-- The place of a byte in its sector is its place in the cluster's sector. -/
theorem mod_clusterBytes_mod (position : Nat) :
    position % F.clusterBytes % sectorSize = position % sectorSize := by
  apply Nat.mod_mod_of_dvd
  rw [F.clusterBytes_eq]
  exact Nat.dvd_mul_left _ _

end Format

/-! ## Reading sectors -/

theorem blocksRead_spec (count : Nat) :
    ∀ {s : Fs} {sector : Nat}, Geometry s.sb s.clusterShift → Coherent s →
    s.sb.fatSectors < sector → sector + count ≤ s.sb.totalSectors →
    Meets (blocksRead sector count) s
      (fun blocks s' => Moved s s' s.image ∧
        blocks = (List.range count).map fun index => s.image (sector + index))
      fun error s' => error = .io ∧ ¬ s.Quiet ∧ Moved s s' s.image := by
  induction count with
  | zero =>
      intro s sector _ coherent _ _
      exact .pure ⟨.refl coherent, rfl⟩
  | succ count induction =>
      intro s sector geometry coherent outside inRange
      -- The second part runs whatever became of the first.
      have rest : ∀ {s1 : Fs}, Moved s s1 s.image →
          Meets (blocksRead (sector + 1) count) s1
            (fun blocks s' => Moved s s' s.image ∧ blocks =
              (List.range count).map fun index => s.image (sector + 1 + index))
            fun error s' => error = .io ∧ ¬ s.Quiet ∧ Moved s s' s.image := by
        intro s1 moved
        refine (induction (moved.same.geometry geometry) moved.coherent
          (by rw [moved.same.sb]; omega) (by rw [moved.same.sb]; omega)).mono ?_ ?_
        · rintro blocks s' ⟨more, isBlocks⟩
          rw [moved.image_eq] at more isBlocks
          exact ⟨moved.trans more, isBlocks⟩
        · rintro error s' ⟨isIo, loud, more⟩
          rw [moved.image_eq] at more
          exact ⟨isIo, moved.same.not_quiet loud, moved.trans more⟩
      unfold blocksRead
      refine .bind (.attempt ((blockRead_image geometry coherent outside
        (by omega)).mono ?_ ?_))
      · rintro first s1 ⟨rfl, moved⟩
        refine .bind (.attempt ((rest moved).mono ?_ ?_))
        · rintro blocks s2 ⟨moved2, rfl⟩
          refine .pure ⟨moved2, ?_⟩
          rw [List.range_succ_eq_map, List.map_cons, List.map_map]
          congr 1
          apply List.map_congr_left
          intro index _
          simp only [Function.comp_apply, Nat.succ_eq_add_one]
          congr 1
          omega
        · rintro error s2 ⟨_, loud, moved2⟩
          exact .throw ⟨rfl, loud, moved2⟩
      · rintro error s1 ⟨_, loud, moved⟩
        refine .bind (.attempt ((rest moved).mono ?_ ?_))
        · rintro blocks s2 ⟨moved2, _⟩
          exact .throw ⟨rfl, loud, moved2⟩
        · rintro error s2 ⟨_, _, moved2⟩
          exact .throw ⟨rfl, loud, moved2⟩

/-! ## Writing sectors -/

theorem blocksWrite_spec (purpose : Purpose) (contents : List Sector) :
    ∀ {s : Fs} {sector : Nat}, Geometry s.sb s.clusterShift → Coherent s →
    (∀ other, InRun sector contents.length other → s.fatCacheSector ≠ other) →
    sector + contents.length ≤ s.sb.totalSectors →
    Meets (blocksWrite purpose sector contents) s
      (fun _ s' => Scribbled (InRun sector contents.length) s s' ∧
        ∀ index block, contents[index]? = some block →
          s'.image (sector + index) = block)
      fun error s' => error = .io ∧ ¬ s.Quiet ∧
        Scribbled (InRun sector contents.length) s s' := by
  induction contents with
  | nil =>
      intro s sector _ coherent _ _
      refine .pure ⟨.refl coherent, fun index block impossible => ?_⟩
      simp at impossible
  | cons block others induction =>
      intro s sector geometry coherent apart inRange
      rw [List.length_cons] at *
      have wider : ∀ other, InRun (sector + 1) others.length other →
          InRun sector (others.length + 1) other := by
        intro other inRun
        simp only [InRun] at *
        omega
      have rest : ∀ {s1 : Fs},
          Scribbled (InRun sector (others.length + 1)) s s1 →
          Meets (blocksWrite purpose (sector + 1) others) s1
            (fun _ s' => Scribbled (InRun sector (others.length + 1)) s s' ∧
              s'.image sector = s1.image sector ∧
              ∀ index block, others[index]? = some block →
                s'.image (sector + 1 + index) = block)
            fun error s' => error = .io ∧ ¬ s.Quiet ∧
              Scribbled (InRun sector (others.length + 1)) s s' := by
        intro s1 scribbled
        refine (induction (scribbled.same.geometry geometry) scribbled.coherent
          (by rw [scribbled.cache]; exact fun other here =>
            apart other (wider other here))
          (by rw [scribbled.same.sb]; omega)).mono ?_ ?_
        · rintro _ s' ⟨more, stored⟩
          have earlier : ¬ InRun (sector + 1) others.length sector := by
            simp only [InRun]
            omega
          exact ⟨scribbled.trans (more.mono wider), more.image_eq sector earlier,
            stored⟩
        · rintro error s' ⟨isIo, loud, more⟩
          exact ⟨isIo, scribbled.same.not_quiet loud,
            scribbled.trans (more.mono wider)⟩
      unfold blocksWrite
      refine .bind (.attempt ((blockWrite_scribbled geometry coherent
        (InRun sector (others.length + 1)) purpose block (by simp [InRun])
        (apart sector (by simp [InRun])) (by omega)).mono ?_ ?_))
      · rintro _ s1 ⟨scribbled, image, _, _⟩
        refine .bind (.attempt ((rest scribbled).mono ?_ ?_))
        · rintro _ s2 ⟨scribbled2, first, stored⟩
          refine .pure ⟨scribbled2, fun index stored' isStored => ?_⟩
          cases index with
          | zero =>
              rw [List.getElem?_cons_zero, Option.some.injEq] at isStored
              rw [Nat.add_zero, first, image, ← isStored]
              simp
          | succ index =>
              rw [List.getElem?_cons_succ] at isStored
              rw [← stored index stored' isStored]
              congr 1
              omega
        · rintro error s2 ⟨_, loud, scribbled2⟩
          exact .throw ⟨rfl, loud, scribbled2⟩
      · rintro error s1 ⟨_, loud, scribbled, _⟩
        refine .bind (.attempt ((rest scribbled).mono ?_ ?_))
        · rintro _ s2 ⟨scribbled2, _, _⟩
          exact .throw ⟨rfl, loud, scribbled2⟩
        · rintro error s2 ⟨_, _, scribbled2⟩
          exact .throw ⟨rfl, loud, scribbled2⟩

end Katela.Filesystem
