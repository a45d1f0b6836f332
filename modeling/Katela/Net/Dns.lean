import Katela.Net.Layers

/-! # DNS messages

A model of `net/dns.c`. -/

namespace Katela.Net

/-- The characters of a string before the terminating zero. -/
structure CString where
  characters : List UInt8
  terminated : 0 ∉ characters

def CString.empty : CString := ⟨[], List.not_mem_nil⟩

def wireNameMax : Nat := 255

def labelMax : Nat := 63

inductive DnsError where
  | malformed
  | name
  | mismatch
  | nxdomain
  | server
  | noAnswer
  deriving DecidableEq, Repr

/-! ## Names -/

/-- The character between two labels. -/
def dot : UInt8 := 46

def nameCharValid (c : UInt8) : Bool :=
  (c ≥ 97 ∧ c ≤ 122) ∨ (c ≥ 65 ∧ c ≤ 90) ∨ (c ≥ 48 ∧ c ≤ 57) ∨ c = 45 ∨ c = 95

def lower (c : UInt8) : UInt8 :=
  if c ≥ 65 ∧ c ≤ 90 then c + 32 else c

/-- The inner loop of `name_encode`: a label and what comes after it. -/
def scanLabel : List UInt8 → Option (List UInt8 × List UInt8)
  | [] => some ([], [])
  | c :: rest =>
      if c = dot then some ([], c :: rest)
      else if nameCharValid c then
        (scanLabel rest).map fun (label, rest) => (c :: label, rest)
      else none

/-- The outer loop of `name_encode`, with what was written and what remains of the
name. -/
def nameEncodeLoop (limit : Nat) :
    (rounds : Nat) → (out rest : List UInt8) → Checked Unit (List UInt8)
  | 0, _, _ => .endless
  | rounds + 1, out, rest =>
      match scanLabel rest with
      | none => .failed ()
      | some (label, rest) =>
          if label.length = 0 ∨ label.length > labelMax then .failed ()
          else if out.length + 1 + label.length + 1 > limit then .failed ()
          else
            let out := out ++ UInt8.ofNat label.length :: label
            match rest with
            | [] => .done (out ++ [0])
            | [_] => .done (out ++ [0])
            | _ :: next :: rest => nameEncodeLoop limit rounds out (next :: rest)

/-- The bytes that are written. The call fails where the code returns 0. -/
def nameEncode (limit : Nat) (name : CString) : Checked Unit (List UInt8) :=
  nameEncodeLoop (if limit > wireNameMax then wireNameMax else limit)
    (name.characters.length + 1) [] name.characters

def nameSkip (bytes : List UInt8) : (rounds offset : Nat) → Checked DnsError Nat
  | 0, _ => .endless
  | rounds + 1, offset =>
      if offset ≥ bytes.length then .failed .malformed
      else do
        let length ← Checked.get bytes offset
        if length = 0 then .done (offset + 1)
        else if length &&& 0xC0 = 0xC0 then
          if offset + 2 > bytes.length then .failed .malformed else .done (offset + 2)
        else if length &&& 0xC0 ≠ 0 then .failed .malformed
        else
          let offset := offset + (1 + length.toNat)
          if offset > bytes.length then .failed .malformed
          else nameSkip bytes rounds offset

/-! ## Queries and responses -/

def dnsHeaderSize : Nat := 12

/-- The bytes of a query, or nothing where the code returns 0. -/
def dnsQueryBuild (capacity : Nat) (id : UInt16) (name : CString) :
    Checked Unit (List UInt8) :=
  if capacity < dnsHeaderSize + 2 + 4 then .failed ()
  else do
    let wire ← nameEncode (capacity - dnsHeaderSize - 4) name
    .done (be16Write id ++ be16Write 0x0100 ++ be16Write 1 ++ List.replicate 6 0 ++
      wire ++ be16Write 1 ++ be16Write 1)

/-- The loop that compares the question with the expected name. -/
def compareName (bytes : List UInt8) :
    (offset : Nat) → (expected : List UInt8) → Checked DnsError Unit
  | _, [] => .done ()
  | offset, character :: expected => do
      let byte ← Checked.get bytes offset
      if lower byte ≠ lower character then .failed .mismatch
      else compareName bytes (offset + 1) expected

/-- The loop over the records of the answer. -/
def answersLoop (bytes : List UInt8) :
    (answers offset : Nat) → Checked DnsError Ipv4Addr
  | 0, _ => .failed .noAnswer
  | answers + 1, offset => do
      let offset ← nameSkip bytes (bytes.length + 1) offset
      if offset + 10 > bytes.length then .failed .malformed
      else do
        let type ← be16Read bytes offset
        let classCode ← be16Read bytes (offset + 2)
        let total ← be16Read bytes (offset + 8)
        let length := total.toNat
        let offset := offset + 10
        if offset + length > bytes.length then .failed .malformed
        else if type = 1 ∧ classCode = 1 ∧ length = 4 then copyAddress bytes offset
        else answersLoop bytes answers (offset + length)

def dnsResponseParse (data : List UInt8) (id : UInt16) (name : CString) :
    Checked DnsError Ipv4Addr :=
  if data.length < dnsHeaderSize then .failed .malformed
  else do
    let found ← be16Read data 0
    if found ≠ id then .failed .mismatch
    else do
      let flags ← be16Read data 2
      if flags &&& 0x8000 = 0 ∨ flags &&& 0x7800 ≠ 0 then .failed .mismatch
      else do
        let questions ← be16Read data 4
        if questions ≠ 1 then .failed .malformed
        else
          (nameEncode 256 name).recover (fun _ => .failed .name) fun expected =>
            if dnsHeaderSize + expected.length + 4 > data.length then
              .failed .malformed
            else do
              compareName data dnsHeaderSize expected
              let offset := dnsHeaderSize + expected.length
              let type ← be16Read data offset
              let classCode ← be16Read data (offset + 2)
              if type ≠ 1 ∨ classCode ≠ 1 then .failed .mismatch
              else if flags &&& 0x000F = 3 then .failed .nxdomain
              else if flags &&& 0x000F ≠ 0 then .failed .server
              else do
                let answers ← be16Read data 6
                answersLoop data answers.toNat (offset + 4)

/-! ## What a name and a message stand for -/

/-- Labels with dots between them. -/
def spelling : List (List UInt8) → List UInt8
  | [] => []
  | [label] => label
  | label :: next :: rest => label ++ dot :: spelling (next :: rest)

/-- Labels, each after its length, and a zero. -/
def wireForm : List (List UInt8) → List UInt8
  | [] => [0]
  | label :: rest => UInt8.ofNat label.length :: (label ++ wireForm rest)

def LabelsValid (labels : List (List UInt8)) : Prop :=
  labels ≠ [] ∧ ∀ label ∈ labels, 1 ≤ label.length ∧ label.length ≤ labelMax ∧
    ∀ character ∈ label, nameCharValid character = true

/-- The encoding of a name, which may end with a dot. -/
def WireName (limit : Nat) (name : List UInt8) (wire : List UInt8) : Prop :=
  ∃ labels, LabelsValid labels ∧
    (name = spelling labels ∨ name = spelling labels ++ [dot]) ∧
    wire = wireForm labels ∧ wire.length ≤ limit

/-- The owner name of a record, and what comes after it: labels that end with a
zero or with a pointer. -/
inductive OwnerName : List UInt8 → List UInt8 → Prop where
  | zero {rest : List UInt8} : OwnerName (0 :: rest) rest
  | pointer {high low : UInt8} {rest : List UInt8} (isPointer : high ≥ 0xC0) :
      OwnerName (high :: low :: rest) rest
  | label {length : UInt8} {label more rest : List UInt8} (positive : 1 ≤ length.toNat)
      (short : length.toNat ≤ labelMax) (isLabel : label.length = length.toNat)
      (owner : OwnerName more rest) : OwnerName (length :: (label ++ more)) rest

/-- A record of an answer. -/
structure Record where
  type : UInt16
  classCode : UInt16
  timeToLive : Address 4
  data : List UInt8

/-- A record is at the front, with the length of its data before them. -/
def RecordAt (bytes : List UInt8) (record : Record) (rest : List UInt8) : Prop :=
  ∃ fields length, OwnerName bytes fields ∧ length.toNat = record.data.length ∧
    fields = be16Write record.type ++ (be16Write record.classCode ++
      (record.timeToLive.val ++ (be16Write length ++ (record.data ++ rest))))

/-- An address of the class for the internet. -/
def Record.IsAddress (record : Record) : Prop :=
  record.type = 1 ∧ record.classCode = 1 ∧ record.data.length = 4

/-- Among the first records is an address, and all those before are well
formed. -/
inductive FirstAddress : Nat → List UInt8 → Ipv4Addr → Prop where
  | here {count : Nat} {bytes rest : List UInt8} {record : Record} {address : Ipv4Addr}
      (isRecord : RecordAt bytes record rest) (isAddress : record.IsAddress)
      (isData : address.val = record.data) : FirstAddress (count + 1) bytes address
  | later {count : Nat} {bytes rest : List UInt8} {record : Record} {address : Ipv4Addr}
      (isRecord : RecordAt bytes record rest) (notAddress : ¬ record.IsAddress)
      (first : FirstAddress count rest address) : FirstAddress (count + 1) bytes address

/-- The message is a response to the question for the address of a name. -/
def AnswersQuestion (data : List UInt8) (id : UInt16) (name : CString)
    (address : Ipv4Addr) : Prop :=
  ∃ flags answers authorities additional : UInt16, ∃ question wire records,
    data = be16Write id ++ (be16Write flags ++ (be16Write 1 ++ (be16Write answers ++
      (be16Write authorities ++ (be16Write additional ++ (question ++
        (be16Write 1 ++ (be16Write 1 ++ records)))))))) ∧
    flags &&& 0x8000 ≠ 0 ∧ flags &&& 0x7800 = 0 ∧ flags &&& 0x000F = 0 ∧
    WireName wireNameMax name.characters wire ∧
    question.map lower = wire.map lower ∧
    FirstAddress answers.toNat records address

end Katela.Net
