import Mathlib.Data.Set.Finite.Basic
import Katela.Filesystem.Calls

/-! # What the filesystem is for

The abstract filesystem: a finite map from valid names to byte strings, and
for every handle in use the name of its file. `MapStep` says what each call
does to them and what it returns. The only thing it leaves open is when the
disk is full. -/

namespace Katela.Filesystem

/-- A finite map from valid names to contents. -/
@[ext] structure FileMap where
  contents : CString → Option (List UInt8)
  valid : ∀ name bytes, contents name = some bytes → nameOk name = true
  finite : {name | contents name ≠ none}.Finite

namespace FileMap

def empty : FileMap where
  contents := fun _ => none
  valid _ _ impossible := by cases impossible
  finite := by simp

def put (map : FileMap) (name : CString) (isValid : nameOk name = true)
    (bytes : List UInt8) : FileMap where
  contents := Function.update map.contents name (some bytes)
  valid other found isFound := by
    by_cases equal : other = name
    · rw [equal]
      exact isValid
    · rw [Function.update_of_ne equal] at isFound
      exact map.valid other found isFound
  finite := by
    refine (map.finite.insert name).subset ?_
    intro other present
    by_cases equal : other = name
    · exact Set.mem_insert_iff.mpr (Or.inl equal)
    · rw [Set.mem_ofPred_eq, Function.update_of_ne equal] at present
      exact Set.mem_insert_iff.mpr (Or.inr present)

def erase (map : FileMap) (name : CString) : FileMap where
  contents := Function.update map.contents name none
  valid other found isFound := by
    by_cases equal : other = name
    · rw [equal, Function.update_self] at isFound
      cases isFound
    · rw [Function.update_of_ne equal] at isFound
      exact map.valid other found isFound
  finite := by
    refine map.finite.subset ?_
    intro other present
    by_cases equal : other = name
    · rw [Set.mem_ofPred_eq, equal, Function.update_self] at present
      exact absurd rfl present
    · rw [Set.mem_ofPred_eq, Function.update_of_ne equal] at present
      exact present

end FileMap

/-- Bytes replaced from `offset` on. -/
def overwrite (bytes : List UInt8) (offset : Nat) (data : List UInt8) :
    List UInt8 :=
  bytes.take offset ++ data ++ bytes.drop (offset + data.length)

/-- The first bytes of a buffer. -/
def bufferBytes (buffer : Nat → UInt8) (count : Nat) : List UInt8 :=
  (List.range count).map buffer

/-- The files and the handles in use. -/
@[ext] structure Session where
  map : FileMap
  handles : FileRef → Option CString

namespace Session

def empty : Session := ⟨.empty, fun _ => none⟩

def put (session : Session) (name : CString) (isValid : nameOk name = true)
    (bytes : List UInt8) : Session :=
  { session with map := session.map.put name isValid bytes }

/-- No handle of the file is used any more. -/
def detach (session : Session) (name : CString) : Session :=
  { session with
    handles := fun file =>
      if session.handles file = some name then none else session.handles file }

/-- The handle is used for the file, and no other one. -/
def attach (session : Session) (file : FileRef) (name : CString) : Session :=
  { session with
    handles := Function.update (session.detach name).handles file (some name) }

def remove (session : Session) (name : CString) : Session :=
  { session.detach name with map := session.map.erase name }

def rename (session : Session) (source target : CString)
    (isValid : nameOk target = true) (bytes : List UInt8) : Session where
  map := (session.map.erase source).put target isValid bytes
  handles := fun file =>
    if session.handles file = some source then some target
    else session.handles file

theorem put_attach (session : Session) (file : FileRef) {name : CString}
    (isValid : nameOk name = true) (bytes : List UInt8) :
    (session.attach file name).put name isValid bytes =
      (session.put name isValid bytes).attach file name :=
  rfl

theorem put_put (session : Session) {name : CString}
    (isValid : nameOk name = true) (bytes bytes' : List UInt8) :
    (session.put name isValid bytes).put name isValid bytes' =
      session.put name isValid bytes' := by
  apply Session.ext
  · apply FileMap.ext
    exact Function.update_idem _ _ _
  · rfl

/-- A handle that is used only for a while. -/
theorem detach_attach {session : Session} {file : FileRef} (name : CString)
    (unused : session.handles file = none) :
    (session.attach file name).detach name = session.detach name := by
  apply Session.ext
  · rfl
  · funext other
    by_cases equal : other = file
    · subst equal
      simp [detach, attach, unused]
    · by_cases same : session.handles other = some name
      · simp [detach, attach, equal, same]
      · simp [detach, attach, equal, same]

end Session

/-- A call with a name that is not valid. -/
def Call.BadName : Call → Prop
  | .create name => ∀ given, name = some given → nameOk given = false
  | .remove name => ∀ given, name = some given → nameOk given = false
  | .rename source target =>
      (∀ given, source = some given → nameOk given = false) ∨
        ∀ given, target = some given → nameOk given = false
  | .open name _ _ => ∀ given, name = some given → nameOk given = false
  | .readAll name => ∀ given, name = some given → nameOk given = false
  | .writeAll name _ _ => ∀ given, name = some given → nameOk given = false
  | _ => False

/-- What a call does and returns. `full` says that no cluster is free after
it. -/
inductive MapStep (full : Prop) (session : Session) :
    Call → Except FsError Reply → Session → Prop where
  | badName {call : Call} (bad : call.BadName) :
      MapStep full session call (.error .name) session
  | create {name : CString} (isValid : nameOk name = true)
      (absent : session.map.contents name = none) :
      MapStep full session (.create (some name)) (.ok .done)
        (session.put name isValid [])
  | createExist {name : CString}
      (present : session.map.contents name ≠ none) :
      MapStep full session (.create (some name)) (.error .exist) session
  | createFull {name : CString} (absent : session.map.contents name = none)
      (isFull : full) :
      MapStep full session (.create (some name)) (.error .nospc) session
  | remove {name : CString} (present : session.map.contents name ≠ none) :
      MapStep full session (.remove (some name)) (.ok .done)
        (session.remove name)
  | removeAbsent {name : CString} (absent : session.map.contents name = none) :
      MapStep full session (.remove (some name)) (.error .noent) session
  | rename {source target : CString} {bytes : List UInt8}
      (isValid : nameOk target = true)
      (present : session.map.contents source = some bytes)
      (absent : session.map.contents target = none) :
      MapStep full session (.rename (some source) (some target)) (.ok .done)
        (session.rename source target isValid bytes)
  | renameExist {source target : CString}
      (present : session.map.contents target ≠ none) :
      MapStep full session (.rename (some source) (some target))
        (.error .exist) session
  | renameAbsent {source target : CString}
      (absentTarget : session.map.contents target = none)
      (absentSource : session.map.contents source = none) :
      MapStep full session (.rename (some source) (some target))
        (.error .noent) session
  | open {name : CString} {file : Nat} {creates : Bool}
      (present : session.map.contents name ≠ none) :
      MapStep full session (.open (some name) file creates) (.ok .done)
        (session.attach (.caller file) name)
  | openNew {name : CString} {file : Nat} (isValid : nameOk name = true)
      (absent : session.map.contents name = none) :
      MapStep full session (.open (some name) file true) (.ok .done)
        ((session.put name isValid []).attach (.caller file) name)
  | openAbsent {name : CString} {file : Nat}
      (absent : session.map.contents name = none) :
      MapStep full session (.open (some name) file false) (.error .noent)
        session
  | openFull {name : CString} {file : Nat}
      (absent : session.map.contents name = none) (isFull : full) :
      MapStep full session (.open (some name) file true) (.error .nospc)
        session
  | read {file : Nat} {offset count : UInt32} {name : CString}
      {bytes : List UInt8}
      (opened : session.handles (.caller file) = some name)
      (present : session.map.contents name = some bytes) :
      MapStep full session (.read file offset count)
        (.ok (.bytes ((bytes.drop offset.toNat).take (min count.toNat maxIo))))
        session
  | write {file : Nat} {offset count : UInt32} {buffer : Nat → UInt8}
      {name : CString} {bytes : List UInt8} {stored : Nat}
      (isValid : nameOk name = true)
      (opened : session.handles (.caller file) = some name)
      (present : session.map.contents name = some bytes)
      (inside : offset.toNat ≤ bytes.length)
      (some : 0 < writeLimit offset.toNat count.toNat → 0 < stored)
      (atMost : stored ≤ writeLimit offset.toNat count.toNat)
      (short : stored = writeLimit offset.toNat count.toNat ∨ full) :
      MapStep full session (.write file offset buffer count)
        (.ok (.count stored))
        (session.put name isValid
          (overwrite bytes offset.toNat (bufferBytes buffer stored)))
  | writeBeyond {file : Nat} {offset count : UInt32} {buffer : Nat → UInt8}
      {name : CString} {bytes : List UInt8}
      (opened : session.handles (.caller file) = some name)
      (present : session.map.contents name = some bytes)
      (beyond : bytes.length < offset.toNat) :
      MapStep full session (.write file offset buffer count) (.error .inval)
        session
  | writeFull {file : Nat} {offset count : UInt32} {buffer : Nat → UInt8}
      {name : CString} {bytes : List UInt8}
      (opened : session.handles (.caller file) = some name)
      (present : session.map.contents name = some bytes)
      (inside : offset.toNat ≤ bytes.length)
      (some : 0 < writeLimit offset.toNat count.toNat) (isFull : full) :
      MapStep full session (.write file offset buffer count) (.error .nospc)
        session
  | truncate {file : Nat} {size : UInt32} {name : CString} {bytes : List UInt8}
      (isValid : nameOk name = true)
      (opened : session.handles (.caller file) = some name)
      (present : session.map.contents name = some bytes)
      (inside : size.toNat ≤ bytes.length) :
      MapStep full session (.truncate file size) (.ok .done)
        (session.put name isValid (bytes.take size.toNat))
  | truncateBeyond {file : Nat} {size : UInt32} {name : CString}
      {bytes : List UInt8}
      (opened : session.handles (.caller file) = some name)
      (present : session.map.contents name = some bytes)
      (beyond : bytes.length < size.toNat) :
      MapStep full session (.truncate file size) (.error .inval) session
  | readAll {name : CString} {bytes : List UInt8}
      (present : session.map.contents name = some bytes)
      (small : bytes.length ≤ fsReadAllMax) :
      MapStep full session (.readAll (some name)) (.ok (.bytes bytes))
        (session.detach name)
  | readAllAbsent {name : CString} (absent : session.map.contents name = none) :
      MapStep full session (.readAll (some name)) (.error .noent)
        session
  | readAllBig {name : CString} {bytes : List UInt8}
      (present : session.map.contents name = some bytes)
      (big : fsReadAllMax < bytes.length) :
      MapStep full session (.readAll (some name)) (.error .toobig)
        (session.detach name)
  | writeAll {name : CString} {buffer : Nat → UInt8} {size : UInt32}
      (isValid : nameOk name = true) :
      MapStep full session (.writeAll (some name) buffer size) (.ok .done)
        ((session.put name isValid (bufferBytes buffer size.toNat)).detach name)
  | writeAllFull {name : CString} {buffer : Nat → UInt8} {size : UInt32}
      {written : Nat} (isValid : nameOk name = true)
      (part : written < size.toNat) (isFull : full) :
      MapStep full session (.writeAll (some name) buffer size) (.error .nospc)
        ((session.put name isValid (bufferBytes buffer written)).detach name)
  | writeAllNoEntry {name : CString} {buffer : Nat → UInt8} {size : UInt32}
      (absent : session.map.contents name = none) (isFull : full) :
      MapStep full session (.writeAll (some name) buffer size) (.error .nospc)
        session

/-- The runs of the abstract filesystem, from no files at all. -/
inductive MapRun : List Event → Session → Prop where
  | start : MapRun [] .empty
  | call {events : List Event} {before after : Session} {event : Event}
      (run : MapRun events before)
      (step : MapStep event.full before event.call event.result after) :
      MapRun (events ++ [event]) after

end Katela.Filesystem
