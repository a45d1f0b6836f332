import Katela.Filesystem.Entries
import Katela.Filesystem.Sectors

/-! # Searching and extending the directory -/

namespace Katela.Filesystem

/-! ## Searching -/

/-- What a search that has looked at some slots knows. -/
structure Scan (image : Image) (name : CString) (Seen : Location → Prop)
    (res : LookupResult) : Prop where
  found : ∀ location entry, res.found = some (location, entry) →
    Seen location ∧ Used image location ∧ entry = entryOf image location ∧
      storedName entry = name
  missing : res.found = none → ∀ location, Seen location →
    Used image location → storedName (entryOf image location) ≠ name
  free : ∀ location, res.free = some location →
    Seen location ∧ ¬ Used image location
  full : res.found = none → res.free = none → ∀ location, Seen location →
    Used image location

namespace Scan

variable {image : Image} {name : CString} {Seen Seen' : Location → Prop}
variable {res : LookupResult}

theorem start (lastCluster : Nat) :
    Scan image name (fun _ => False) { lastCluster := lastCluster } := by
  constructor
  · intro location entry impossible
    cases impossible
  · intro _ location impossible
    exact impossible.elim
  · intro location impossible
    cases impossible
  · intro _ _ location impossible
    exact impossible.elim

theorem mono (scan : Scan image name Seen res)
    (more : ∀ location, Seen location → Seen' location)
    (least : res.found = none → ∀ location, Seen' location → Seen location) :
    Scan image name Seen' res where
  found location entry isFound := by
    rcases scan.found location entry isFound with ⟨seen, rest⟩
    exact ⟨more location seen, rest⟩
  missing notFound location seen :=
    scan.missing notFound location (least notFound location seen)
  free location isFree := by
    rcases scan.free location isFree with ⟨seen, unused⟩
    exact ⟨more location seen, unused⟩
  full notFound noFree location seen :=
    scan.full notFound noFree location (least notFound location seen)

theorem withLast (scan : Scan image name Seen res) (lastCluster : Nat) :
    Scan image name Seen { res with lastCluster := lastCluster } :=
  ⟨scan.found, scan.missing, scan.free, scan.full⟩

/-- A slot that is not in use can hold a new entry. -/
theorem unused (scan : Scan image name Seen res) (notFound : res.found = none)
    {slot : Location} (notUsed : ¬ Used image slot) :
    Scan image name (fun location => Seen location ∨ location = slot)
      { res with free := res.free <|> some slot } := by
  constructor
  · intro location entry isFound
    rcases scan.found location entry isFound with ⟨seen, rest⟩
    exact ⟨Or.inl seen, rest⟩
  · rintro _ location (seen | rfl) used
    · exact scan.missing notFound location seen used
    · exact absurd used notUsed
  · intro location isFree
    cases already : res.free with
    | none =>
        simp only [already] at isFree
        injection isFree with equal
        subst equal
        exact ⟨Or.inr rfl, notUsed⟩
    | some earlier =>
        simp only [already] at isFree
        injection isFree with equal
        subst equal
        rcases scan.free earlier already with ⟨seen, unused⟩
        exact ⟨Or.inl seen, unused⟩
  · intro _ noFree
    cases already : res.free with
    | none => simp [already] at noFree
    | some earlier => simp [already] at noFree

/-- A slot in use that stores another name. -/
theorem skip (scan : Scan image name Seen res) (notFound : res.found = none)
    {slot : Location} (used : Used image slot)
    (otherName : storedName (entryOf image slot) ≠ name) :
    Scan image name (fun location => Seen location ∨ location = slot) res := by
  constructor
  · intro location entry isFound
    rw [notFound] at isFound
    cases isFound
  · rintro _ location (seen | rfl) used
    · exact scan.missing notFound location seen used
    · exact otherName
  · intro location isFree
    rcases scan.free location isFree with ⟨seen, unused⟩
    exact ⟨Or.inl seen, unused⟩
  · rintro _ noFree location (seen | rfl)
    · exact scan.full notFound noFree location seen
    · exact used

/-- The slot that stores the name ends the search. -/
theorem hit (scan : Scan image name Seen res) {slot : Location}
    (used : Used image slot) (stored : storedName (entryOf image slot) = name)
    (more : ∀ location, Seen location → Seen' location) (seenSlot : Seen' slot) :
    Scan image name Seen' { res with found := some (slot, entryOf image slot) } := by
  constructor
  · intro location entry isFound
    injection isFound with isFound
    injection isFound with isLocation isEntry
    subst isLocation
    subst isEntry
    exact ⟨seenSlot, used, rfl, stored⟩
  · intro impossible
    cases impossible
  · intro location isFree
    rcases scan.free location isFree with ⟨seen, unused⟩
    exact ⟨more location seen, unused⟩
  · intro impossible
    cases impossible

/-- The slots from `slot` on are `slot` and those from `slot + 1` on. -/
theorem fromSlot {sector slot rounds : Nat}
    (scan : Scan image name (fun location =>
      (Seen location ∨ location = ⟨sector, slot⟩) ∨
        location.sector = sector ∧ slot + 1 ≤ location.slot ∧
          location.slot < slot + 1 + rounds) res) :
    Scan image name (fun location => Seen location ∨
      location.sector = sector ∧ slot ≤ location.slot ∧
        location.slot < slot + (rounds + 1)) res := by
  refine scan.mono ?_ ?_
  · rintro location ((before | rfl) | ⟨atSector, lower, upper⟩)
    · exact Or.inl before
    · exact Or.inr ⟨rfl, by simp, by simp⟩
    · exact Or.inr ⟨atSector, by omega, by omega⟩
  · rintro _ location (seen | ⟨atSector, lower, upper⟩)
    · exact Or.inl (Or.inl seen)
    · by_cases here : location.slot = slot
      · refine Or.inl (Or.inr ?_)
        cases location
        simp only [Location.mk.injEq]
        exact ⟨atSector, here⟩
      · exact Or.inr ⟨atSector, by omega, by omega⟩

end Scan

theorem scanSlots_spec {image : Image} {name : CString}
    (valid : nameOk name = true) (sector : Nat) (rounds : Nat) :
    ∀ (slot : Nat) {Seen : Location → Prop} {res : LookupResult},
    Scan image name Seen res → res.found = none →
    Scan image name (fun location => Seen location ∨
        location.sector = sector ∧ slot ≤ location.slot ∧
          location.slot < slot + rounds)
      (scanSlots name (image sector) sector rounds slot res) ∧
    (scanSlots name (image sector) sector rounds slot res).lastCluster =
      res.lastCluster := by
  induction rounds with
  | zero =>
      intro slot Seen res scan notFound
      refine ⟨scan.mono (fun _ seen => Or.inl seen) ?_, rfl⟩
      rintro _ location (seen | ⟨_, lower, upper⟩)
      · exact seen
      · omega
  | succ rounds induction =>
      intro slot Seen res scan notFound
      have isEntry : entryAt (image sector) slot = entryOf image ⟨sector, slot⟩ := rfl
      unfold scanSlots
      simp only
      split
      · rename_i unused
        have notUsed : ¬ Used image ⟨sector, slot⟩ := by
          unfold Used
          rw [← isEntry]
          omega
        have rest := induction (slot + 1) (scan.unused notFound notUsed) notFound
        exact ⟨rest.1.fromSlot, rest.2⟩
      · rename_i used
        have isUsed : Used image ⟨sector, slot⟩ := by
          unfold Used
          rw [← isEntry]
          omega
        split
        · rename_i isName
          have stored := (sameName_iff valid).mp isName
          exact ⟨scan.hit isUsed stored (fun _ seen => Or.inl seen)
            (Or.inr ⟨rfl, by simp, by simp⟩), rfl⟩
        · rename_i otherName
          have rest := induction (slot + 1) (scan.skip notFound isUsed
            fun stored => otherName ((sameName_iff valid).mpr stored)) notFound
          exact ⟨rest.1.fromSlot, rest.2⟩

/-- Reading a sector outside the FAT. -/
theorem blockRead_image {s : Fs} (geometry : Geometry s.sb s.clusterShift)
    (coherent : Coherent s) {sector : Nat} (outside : s.sb.fatSectors < sector)
    (inRange : sector < s.sb.totalSectors) :
    Meets (blockRead sector) s
      (fun contents s' => contents = s.image sector ∧ Moved s s' s.image)
      fun error s' => error = .io ∧ ¬ s.Quiet ∧ Moved s s' s.image := by
  refine (blockRead_spec s sector).mono ?_ ?_
  · rintro contents s' ⟨rfl, rfl⟩
    refine ⟨?_, .request coherent sector none⟩
    rw [coherent.image_eq_disk outside, geometry.lba_eq inRange]
    rfl
  · rintro error s' ⟨isIo, loud, rfl⟩
    exact ⟨isIo, loud, .request coherent sector none⟩

theorem scanSectors_spec {name : CString} (valid : nameOk name = true)
    (count : Nat) :
    ∀ {s : Fs} {sector : Nat} {Seen : Location → Prop} {res : LookupResult},
    Geometry s.sb s.clusterShift → Coherent s → s.sb.fatSectors < sector →
    sector + count ≤ s.sb.totalSectors → Scan s.image name Seen res →
    res.found = none →
    Meets (scanSectors name count sector res) s
      (fun res' s' => Moved s s' s.image ∧
        res'.lastCluster = res.lastCluster ∧
        Scan s.image name (fun location => Seen location ∨
          location.slot < slotsPerSector ∧ InRun sector count location.sector)
          res')
      fun error s' => error = .io ∧ ¬ s.Quiet ∧ Moved s s' s.image := by
  induction count with
  | zero =>
      intro s sector Seen res _ coherent _ _ scan _
      refine .pure ⟨.refl coherent, rfl, scan.mono (fun _ seen => Or.inl seen) ?_⟩
      rintro _ location (seen | ⟨_, inRun⟩)
      · exact seen
      · simp only [InRun] at inRun
        omega
  | succ count induction =>
      intro s sector Seen res geometry coherent outside inRange scan notFound
      unfold scanSectors
      refine (blockRead_image geometry coherent outside (by omega)).seq ?_
        fun _ _ failed => failed
      rintro contents s' ⟨rfl, moved⟩
      have slots := scanSlots_spec valid sector slotsPerSector 0 scan notFound
      dsimp only
      generalize scanSlots name (s.image sector) sector slotsPerSector 0 res =
        res' at slots
      refine .ite (fun isFound => ?_) fun isMissing => ?_
      · refine .pure ⟨moved, slots.2, slots.1.mono ?_ ?_⟩
        · rintro location (seen | ⟨rfl, _, inside⟩)
          · exact Or.inl seen
          · refine Or.inr ⟨by omega, ?_⟩
            simp only [InRun]
            omega
        · intro impossible
          rw [impossible] at isFound
          cases isFound
      · have missing : res'.found = none := by simpa using isMissing
        have scan' := slots.1
        rw [← moved.image_eq] at scan'
        refine (induction (moved.same.geometry geometry) moved.coherent
          (by rw [moved.same.sb]; omega) (by rw [moved.same.sb]; omega)
          scan' missing).mono ?_ ?_
        · rintro res'' s'' ⟨more, last, rest⟩
          rw [moved.image_eq] at more rest
          refine ⟨moved.trans more, last.trans slots.2, rest.mono ?_ ?_⟩
          · rintro location ((seen | ⟨rfl, _, inside⟩) | ⟨inside, inRun⟩)
            · exact Or.inl seen
            · refine Or.inr ⟨by omega, ?_⟩
              simp only [InRun]
              omega
            · refine Or.inr ⟨inside, ?_⟩
              simp only [InRun] at *
              omega
          · rintro _ location (seen | ⟨inside, inRun⟩)
            · exact Or.inl (Or.inl seen)
            · by_cases here : location.sector = sector
              · exact Or.inl (Or.inr ⟨here, Nat.zero_le _, by omega⟩)
              · refine Or.inr ⟨inside, ?_⟩
                simp only [InRun] at *
                omega
        · rintro error s'' ⟨isIo, loud, more⟩
          rw [moved.image_eq] at more
          exact ⟨isIo, moved.same.not_quiet loud, moved.trans more⟩

/-- Every slot of the directory is in use. -/
def NoSlot (F : Format) (image : Image) (root : List Nat) : Prop :=
  ∀ location, F.InDir root location → Used image location

/-- What a search for a valid name through the whole directory knows. -/
structure Looked (F : Format) (image : Image) (root : List Nat) (name : CString)
    (res : LookupResult) : Prop where
  found : ∀ location entry, res.found = some (location, entry) →
    Holds F image root location ∧ entry = entryOf image location ∧
      storedName entry = name
  missing : res.found = none → ∀ location, Holds F image root location →
    storedName (entryOf image location) ≠ name
  free : ∀ location, res.free = some location →
    F.InDir root location ∧ ¬ Used image location
  last : res.found = none → root.getLast? = some res.lastCluster
  full : res.found = none → res.free = none → NoSlot F image root

namespace Looked

variable {F : Format} {image : Image} {name : CString} {res : LookupResult}
variable {before root : List Nat}

/-- The name was found in a part of the directory. -/
theorem ofFound (scan : Scan image name (F.InDir before) res)
    (isFound : res.found.isSome = true)
    (toRoot : ∀ location, F.InDir before location → F.InDir root location) :
    Looked F image root name res where
  found location entry found := by
    rcases scan.found location entry found with ⟨inSeen, used, same⟩
    exact ⟨⟨toRoot location inSeen, used⟩, same⟩
  missing missing := by
    rw [missing] at isFound
    cases isFound
  free location isFree := by
    rcases scan.free location isFree with ⟨inSeen, unused⟩
    exact ⟨toRoot location inSeen, unused⟩
  last missing := by
    rw [missing] at isFound
    cases isFound
  full missing := by
    rw [missing] at isFound
    cases isFound

/-- The whole directory was searched and the name is not there. -/
theorem ofMissing (scan : Scan image name (F.InDir root) res)
    (notFound : res.found = none) (last : root.getLast? = some res.lastCluster) :
    Looked F image root name res where
  found location entry isFound := by
    rw [notFound] at isFound
    cases isFound
  missing _ location held := scan.missing notFound location held.inDir held.used
  free := scan.free
  last _ := last
  full := scan.full

end Looked

/-- The slots of the last cluster of a directory. -/
theorem Format.inDir_concat (F : Format) {before : List Nat} {cluster : Nat}
    (location : Location) : F.InDir (before ++ [cluster]) location ↔
      F.InDir before location ∨ location.slot < slotsPerSector ∧
        InRun (F.sectorOf cluster) (2 ^ F.shift) location.sector := by
  simp only [Format.InDir, List.mem_append, List.mem_singleton]
  constructor
  · rintro ⟨inside, other, isBefore | rfl, inCluster⟩
    · exact Or.inl ⟨inside, other, isBefore, inCluster⟩
    · exact Or.inr ⟨inside, inCluster⟩
  · rintro (⟨inside, other, isBefore, inCluster⟩ | ⟨inside, inCluster⟩)
    · exact ⟨inside, other, Or.inl isBefore, inCluster⟩
    · exact ⟨inside, cluster, Or.inr rfl, inCluster⟩

section Lookup

variable {F : Format} {live : FileRef → Prop} {own : Ownership}

/-- The clusters `before` have been searched and `rest` remains. -/
theorem lookupLoop_inv {name : CString} (valid : nameOk name = true)
    (rest : List Nat) :
    ∀ {s : Fs} {left : Nat} (before : List Nat) {res : LookupResult},
    Inv F live s own → own .root = before ++ rest → rest.length ≤ left →
    Scan s.image name (F.InDir before) res → res.found = none →
    (before ≠ [] → before.getLast? = some res.lastCluster) →
    Meets (lookupLoop name left (firstOf rest) res) s
      (fun res' s' => Inv F live s' own ∧ FatOnly F s s' ∧
        s'.image = s.image ∧ Looked F s.image (own .root) name res')
      fun error s' => error = .io ∧ ¬ s.Quiet ∧ Inv F live s' own ∧
        FatOnly F s s' ∧ s'.image = s.image := by
  induction rest with
  | nil =>
      intro s left before res inv split _ scan notFound last
      rw [List.append_nil] at split
      unfold lookupLoop
      rw [firstOf_nil, if_pos rfl]
      refine .pure ⟨inv, .refl s, rfl, ?_⟩
      have nonempty : before ≠ [] := by
        intro empty
        have root := inv.directory.root
        rw [split, empty] at root
        cases root
      rw [split]
      exact .ofMissing scan notFound (last nonempty)
  | cons cluster rest induction =>
      intro s left before res inv split enough scan notFound _
      have member : cluster ∈ own .root := by simp [split]
      have bounds := inv.accounted.bounds .root cluster member
      have nonzero : cluster ≠ 0 := by omega
      have power := Nat.two_pow_pos F.shift
      have here : F.InCluster cluster (F.sectorOf cluster) :=
        ⟨Nat.le_refl _, Nat.lt_add_of_pos_right power⟩
      have bound : F.sectorOf cluster + 2 ^ F.shift ≤ F.sb.totalSectors := by
        have inside := F.geometry.sector_lt bounds.2 bounds.1
          (Nat.sub_one_lt_of_lt power)
        simp only [Format.sectorOf]
        omega
      have toRoot : ∀ location, F.InDir (before ++ [cluster]) location →
          F.InDir (own .root) location := by
        intro location inDir
        apply inDir.mono
        intro other isSeen
        rw [split]
        rcases List.mem_append.mp isSeen with early | isCluster
        · exact List.mem_append_left _ early
        · rw [List.mem_singleton] at isCluster
          simp [isCluster]
      unfold lookupLoop
      rw [firstOf_cons, if_neg nonzero]
      refine .bind (.get ?_)
      rw [inv.shift, inv.clusterSector_eq member]
      refine (scanSectors_spec valid (2 ^ F.shift) inv.geometry inv.coherent
        (by rw [inv.sb]; exact F.fat_lt_of_inCluster here)
        (by rw [inv.sb]; exact bound) (scan.withLast cluster) notFound).seq ?_ ?_
      · rintro res' s' ⟨moved, last, seen⟩
        have inv' := inv.unmoved moved
        have only : FatOnly F s s' := .ofUnmoved moved
        have scan' : Scan s.image name (F.InDir (before ++ [cluster])) res' :=
          seen.mono (fun location inSeen => (F.inDir_concat location).mpr inSeen)
            fun _ location inSeen => (F.inDir_concat location).mp inSeen
        refine .ite (fun isFound => ?_) fun isMissing => ?_
        · exact .pure ⟨inv', only, moved.image_eq, .ofFound scan' isFound toRoot⟩
        · have missing : res'.found = none := by simpa using isMissing
          refine (chainNext_inv inv' split).seq ?_ ?_
          · rintro next walked ⟨inv'', only', image, isNext⟩
            cases left with
            | zero => simp at enough
            | succ left =>
                have sameImage : walked.image = s.image :=
                  image.trans moved.image_eq
                rw [isNext]
                refine (induction (before ++ [cluster]) inv'' (by simp [split])
                  (by simpa using enough) (by rw [sameImage]; exact scan') missing
                  (by intro _; simp [last])).mono ?_ ?_
                · rintro res'' done ⟨after, only'', image', looked⟩
                  rw [sameImage] at image' looked
                  exact ⟨after, (only.trans only').trans only'', image', looked⟩
                · rintro error failed ⟨isIo, loud, after, only'', image'⟩
                  rw [sameImage] at image'
                  exact ⟨isIo, (only.trans only').same.not_quiet loud, after,
                    (only.trans only').trans only'', image'⟩
          · rintro error failed ⟨isIo, loud, inv'', only', image⟩
            exact ⟨isIo, only.same.not_quiet loud, inv'', only.trans only',
              image.trans moved.image_eq⟩
      · rintro error s' ⟨isIo, loud, moved⟩
        exact ⟨isIo, loud, inv.unmoved moved, .ofUnmoved moved, moved.image_eq⟩

theorem dirLookup_inv {s : Fs} {name : CString} (valid : nameOk name = true)
    (inv : Inv F live s own) :
    Meets (dirLookup name) s
      (fun res s' => Inv F live s' own ∧ FatOnly F s s' ∧
        s'.image = s.image ∧ Looked F s.image (own .root) name res)
      fun error s' => error = .io ∧ ¬ s.Quiet ∧ Inv F live s' own ∧
        FatOnly F s s' ∧ s'.image = s.image := by
  unfold dirLookup
  refine .bind (.get ?_)
  have first : s.sb.rootCluster = firstOf (own .root) := by
    rw [inv.sb, firstOf, inv.directory.root]
    rfl
  have start : Scan s.image name (F.InDir [])
      { lastCluster := s.sb.rootCluster } := by
    refine (Scan.start s.sb.rootCluster).mono (fun _ impossible => impossible.elim) ?_
    rintro _ location ⟨_, cluster, member, _⟩
    cases member
  have length := inv.accounted.length_le .root
  rw [← inv.sb] at length
  have loop := lookupLoop_inv valid (own .root) [] inv (List.nil_append _).symm
    length start rfl (fun nonempty => absurd rfl nonempty)
  rw [← first] at loop
  exact loop

end Lookup

/-! ## Files that stay as they are -/

/-- The file in a slot, if there is one, keeps its entry, its clusters and its
contents. -/
structure KeptAt (F : Format) (image image' : Image) (own own' : Ownership)
    (location : Location) : Prop where
  holds : Holds F image' (own' .root) location ↔
    Holds F image (own .root) location
  entry : Holds F image (own .root) location →
    entryOf image' location = entryOf image location
  chain : own' (.slot location) = own (.slot location)
  data : ∀ cluster ∈ own (.slot location), ∀ sector,
    F.InCluster cluster sector → image' sector = image sector

namespace KeptAt

variable {F : Format} {image image' image'' : Image}
variable {own own' own'' : Ownership} {location : Location}

theorem refl (F : Format) (image : Image) (own : Ownership)
    (location : Location) : KeptAt F image image own own location :=
  ⟨Iff.rfl, fun _ => rfl, rfl, fun _ _ _ _ => rfl⟩

theorem trans (first : KeptAt F image image' own own' location)
    (second : KeptAt F image' image'' own' own'' location) :
    KeptAt F image image'' own own'' location where
  holds := second.holds.trans first.holds
  entry held :=
    (second.entry (first.holds.mpr held)).trans (first.entry held)
  chain := second.chain.trans first.chain
  data cluster member sector here :=
    (second.data cluster (first.chain ▸ member) sector here).trans
      (first.data cluster member sector here)

/-- Sectors outside the FAT stayed. -/
theorem ofSectors (root : own' .root = own .root)
    (chain : own' (.slot location) = own (.slot location))
    (same : ∀ sector, F.sb.fatSectors < sector → image' sector = image sector) :
    KeptAt F image image' own own' location where
  holds := by
    rw [root]
    refine Directory.holds_congr fun inDir => same _ ?_
    exact inDir.fat_lt
  entry held := by
    unfold entryOf
    rw [same _ held.inDir.fat_lt]
  chain := chain
  data cluster _ sector here := same sector (F.fat_lt_of_inCluster here)

theorem ofFatOnly {s s' : Fs} (only : FatOnly F s s')
    (root : own' .root = own .root)
    (chain : own' (.slot location) = own (.slot location)) :
    KeptAt F s.image s'.image own own' location :=
  .ofSectors root chain fun sector outside => only.image_eq sector (Or.inr outside)

end KeptAt

/-! ## Changing one slot -/

/-- The image after `slot_store`. -/
def putEntry (image : Image) (location : Location) (entry : DirEntry) : Image :=
  Function.update image location.sector
    ((image location.sector).copyInto (location.slot * dirEntrySize) dirEntrySize
      entry.toBytes)

theorem entryOf_putEntry_self (image : Image) {location : Location}
    (inside : location.slot < slotsPerSector) {entry : DirEntry}
    (bounded : entry.Bounded) :
    entryOf (putEntry image location entry) location = entry := by
  simp only [entryOf, putEntry, Function.update_self]
  exact entryAt_copyInto_self inside bounded

theorem entryOf_putEntry_other (image : Image) {location other : Location}
    (entry : DirEntry) (different : other ≠ location) :
    entryOf (putEntry image location entry) other = entryOf image other := by
  by_cases same : other.sector = location.sector
  · have slots : other.slot ≠ location.slot := by
      intro equal
      apply different
      cases other
      cases location
      simp_all
    simp only [entryOf, putEntry, same, Function.update_self]
    exact entryAt_copyInto_other slots entry.toBytes
  · simp [entryOf, putEntry, same]

theorem putEntry_other (image : Image) {location : Location} (entry : DirEntry)
    {sector : Nat} (elsewhere : sector ≠ location.sector) :
    putEntry image location entry sector = image sector :=
  Function.update_of_ne elsewhere _ _

/-- One slot of the directory gets another entry. -/
theorem Directory.put {F : Format} {image image' : Image} {own own' : Ownership}
    {location : Location} (before : Directory F image own)
    (inDir : F.InDir (own .root) location)
    (entries : ∀ other, other ≠ location →
      entryOf image' other = entryOf image other)
    (root : own' .root = own .root)
    (slots : ∀ other, other ≠ location →
      own' (.slot other) = own (.slot other))
    (first : Used image' location →
      firstOf (own' (.slot location)) = (entryOf image' location).first)
    (size : Used image' location → (entryOf image' location).size ≤
      (own' (.slot location)).length * F.clusterBytes)
    (vacant : ¬ Used image' location → own' (.slot location) = [])
    (valid : Used image' location →
      nameOk (storedName (entryOf image' location)) = true)
    (distinct : Used image' location → ∀ other, other ≠ location →
      Holds F image (own .root) other →
      storedName (entryOf image other) ≠ storedName (entryOf image' location)) :
    Directory F image' own' := by
  have holds : ∀ other, other ≠ location →
      (Holds F image' (own .root) other ↔ Holds F image (own .root) other) := by
    intro other different
    constructor
    · rintro ⟨isIn, used⟩
      exact ⟨isIn, by simpa [Used, entries other different] using used⟩
    · rintro ⟨isIn, used⟩
      exact ⟨isIn, by simpa [Used, entries other different] using used⟩
  constructor
  case root => rw [root]; exact before.root
  case first =>
    intro other held
    rw [root] at held
    by_cases equal : other = location
    · subst equal
      exact first held.used
    · rw [slots other equal, entries other equal]
      exact before.first other ((holds other equal).mp held)
  case size =>
    intro other held
    rw [root] at held
    by_cases equal : other = location
    · subst equal
      exact size held.used
    · rw [slots other equal, entries other equal]
      exact before.size other ((holds other equal).mp held)
  case vacant =>
    intro other empty
    rw [root] at empty
    by_cases equal : other = location
    · subst equal
      exact vacant fun used => empty ⟨inDir, used⟩
    · rw [slots other equal]
      exact before.vacant other fun held => empty ((holds other equal).mpr held)
  case valid =>
    intro other held
    rw [root] at held
    by_cases equal : other = location
    · subst equal
      exact valid held.used
    · rw [entries other equal]
      exact before.valid other ((holds other equal).mp held)
  case distinct =>
    intro one two held held' same
    rw [root] at held held'
    by_cases isOne : one = location
    · by_cases isTwo : two = location
      · rw [isOne, isTwo]
      · subst isOne
        rw [entries two isTwo] at same
        exact absurd same.symm
          (distinct held.used two isTwo ((holds two isTwo).mp held'))
    · by_cases isTwo : two = location
      · subst isTwo
        rw [entries one isOne] at same
        exact absurd same
          (distinct held'.used one isOne ((holds one isOne).mp held))
      · rw [entries one isOne, entries two isTwo] at same
        exact before.distinct one two ((holds one isOne).mp held)
          ((holds two isTwo).mp held') same

/-- A slot is not in a cluster of anybody but the directory. -/
theorem Accounted.putEntry_data {F : Format} {exact : Prop} {image : Image}
    {own : Ownership} {location : Location} {owner : Owner}
    (accounted : Accounted exact F.sb image own)
    (inDir : F.InDir (own .root) location) (notRoot : owner ≠ .root)
    (entry : DirEntry) {cluster sector : Nat} (member : cluster ∈ own owner)
    (here : F.InCluster cluster sector) :
    putEntry image location entry sector = image sector := by
  apply putEntry_other
  rintro rfl
  rcases inDir with ⟨_, dirCluster, inRoot, there⟩
  have positive := (accounted.bounds _ cluster member).1
  have dirPositive := (accounted.bounds .root dirCluster inRoot).1
  have equal := F.inCluster_unique positive dirPositive here there
  subst equal
  exact notRoot (accounted.chains.apart _ _ cluster member inRoot)

/-- The other files stay when one slot changes and its sector is of the
directory. -/
theorem KeptAt.put {F : Format} {exact : Prop} {image : Image}
    {own own' : Ownership} {location other : Location} {entry : DirEntry}
    (accounted : Accounted exact F.sb image own)
    (inDir : F.InDir (own .root) location) (different : other ≠ location)
    (root : own' .root = own .root)
    (slots : own' (.slot other) = own (.slot other)) :
    KeptAt F image (putEntry image location entry) own own' other where
  holds := by
    rw [root]
    constructor
    · rintro ⟨isIn, used⟩
      refine ⟨isIn, ?_⟩
      simpa [Used, entryOf_putEntry_other image entry different] using used
    · rintro ⟨isIn, used⟩
      refine ⟨isIn, ?_⟩
      simpa [Used, entryOf_putEntry_other image entry different] using used
  entry _ := entryOf_putEntry_other image entry different
  chain := slots
  data _ member _ here :=
    accounted.putEntry_data inDir (by simp) entry member here

end Katela.Filesystem
