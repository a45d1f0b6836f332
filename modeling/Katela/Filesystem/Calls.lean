import Katela.Filesystem.Cache

/-! # Runs of the filesystem

A run is a sequence of calls of the public functions. The callers keep to one
rule: a handle is used only while it is live. It becomes live when a file is
opened with it, and it stops being live when its file is removed, opened again
or handed to `fs_read_all` or `fs_write_all`, or when the disk is mounted or
formatted anew. -/

namespace Katela.Filesystem

inductive Call where
  | init
  | format
  | create (name : Option CString)
  | remove (name : Option CString)
  | rename (source target : Option CString)
  | open (name : Option CString) (file : Nat) (creates : Bool)
  | read (file : Nat) (offset count : UInt32)
  | write (file : Nat) (offset : UInt32) (buffer : Nat → UInt8) (count : UInt32)
  | truncate (file : Nat) (size : UInt32)
  | readAll (name : Option CString)
  | writeAll (name : Option CString) (buffer : Nat → UInt8) (size : UInt32)
  | iterBegin (iter : Nat)
  | iterNext (iter : Nat)
  | usage

/-- What a call returns when it succeeds. -/
inductive Reply where
  | done
  | started (how : InitResult)
  | bytes (bytes : List UInt8)
  | count (stored : Nat)
  | next (info : Option FsInfo)
  | stats (stats : FsStats)

def Call.run : Call → FsM Reply
  | .init => Reply.started <$> fsInit
  | .format => (fun _ => Reply.done) <$> fsFormat
  | .create name => (fun _ => Reply.done) <$> fsCreate name
  | .remove name => (fun _ => Reply.done) <$> fsRemove name
  | .rename source target => (fun _ => Reply.done) <$> fsRename source target
  | .open name file creates =>
      (fun _ => Reply.done) <$> fsOpen name (.caller file) creates
  | .read file offset count =>
      Reply.bytes <$> fsRead (.caller file) offset.toNat count.toNat
  | .write file offset buffer count =>
      Reply.count <$> fsWrite (.caller file) offset.toNat buffer count.toNat
  | .truncate file size =>
      (fun _ => Reply.done) <$> fsTruncate (.caller file) size.toNat
  | .readAll name => Reply.bytes <$> fsReadAll name
  | .writeAll name buffer size =>
      (fun _ => Reply.done) <$> fsWriteAll name buffer size.toNat
  | .iterBegin iter => (fun _ => Reply.done) <$> fsIterBegin iter
  | .iterNext iter => Reply.next <$> fsIterNext iter
  | .usage => Reply.stats <$> fsUsage

/-- The result of a call and the state that it leaves. -/
def perform (call : Call) (s : Fs) : Except FsError Reply × Fs :=
  match call.run s with
  | .ok reply s' => (.ok reply, s')
  | .error error s' => (.error error, s')

/-- How many bytes `fs_write` may write. -/
def writeLimit (offset count : Nat) : Nat :=
  min (min count maxIo) (0xFFFFFFFF - offset)

/-! ## Live handles -/

/-- The directory entry of an open file, on the disk. -/
def slotOf (s : Fs) (file : FileRef) : DirEntry :=
  entryAt (s.disk (s.files file).dirSector) (s.files file).dirSlot

/-- The name that a directory entry stores. -/
def storedName (entry : DirEntry) : CString :=
  boundedString entry.name.byteAt 116

/-- The handle that a call uses must be live. -/
def Call.Usable (live : FileRef → Prop) : Call → Prop
  | .read file _ _ => live (.caller file)
  | .write file _ _ _ => live (.caller file)
  | .truncate file _ => live (.caller file)
  | _ => True

/-- The handles that are live after a call, if `lasting` also after a mount. -/
def Call.liveAfter (lasting : Prop) (call : Call) (s : Fs)
    (result : Except FsError Reply) (s' : Fs) (live : FileRef → Prop)
    (file : FileRef) : Prop :=
  match call with
  | .init => live file ∧ lasting
  | .format => False
  | .remove _ => live file ∧ (slotOf s' file).flags % 2 = 1
  | .open _ opened _ =>
      match result with
      | .ok _ => file = .caller opened ∨
          live file ∧ file ≠ .caller opened ∧
            ¬ ((s.files file).dirSector = (s'.files (.caller opened)).dirSector ∧
              (s.files file).dirSlot = (s'.files (.caller opened)).dirSlot)
      | .error _ => live file ∧ s'.files file = s.files file
  | .readAll name => live file ∧ name ≠ some (storedName (slotOf s file))
  | .writeAll name _ _ => live file ∧ name ≠ some (storedName (slotOf s file))
  | _ => live file

/-! ## Runs -/

/-- No cluster is free. -/
def NoSpace (s : Fs) : Prop :=
  ∀ cluster, 1 ≤ cluster → cluster ≤ s.sb.clusterCount →
    fatAt s.disk cluster ≠ 0

/-- One call of a run, with its result and whether the disk was full after
it. -/
structure Event where
  call : Call
  result : Except FsError Reply
  full : Prop

/-- A run from `start` of calls of the given kind, with the state and the live
handles that it ends in. -/
inductive Run (Kind : Call → Prop) (lasting : Prop) (start : Fs) :
    List Event → Fs → (FileRef → Prop) → Prop where
  | start : Run Kind lasting start [] start fun _ => False
  | call {events : List Event} {s s' : Fs} {live : FileRef → Prop} {call : Call}
      {result : Except FsError Reply}
      (before : Run Kind lasting start events s live)
      (kind : Kind call) (usable : call.Usable live)
      (performed : perform call s = (result, s')) :
      Run Kind lasting start (events ++ [⟨call, result, NoSpace s'⟩]) s'
        (call.liveAfter lasting s result s' live)

/-- The disk was formatted by `fs_format`; the record of what was written to it
starts anew. -/
def Formatted (s : Fs) : Prop :=
  ∃ before after : Fs, before.total ≤ 0x0FFFFFFF ∧
    (before.diskSectors = 0 ∨ before.diskSectors = before.total) ∧
    fsFormat before = .ok () after ∧
    s = { after with history := [], accesses := [] }

end Katela.Filesystem
