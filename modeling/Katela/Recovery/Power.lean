import Katela.Foundation.Traced
import Mathlib.Algebra.Ring.Nat

/-! # Tables of the firmware

A model of `find_table` and `find_sleep_types` of `src/kernel/power.c`, which walk the tables
that the firmware left in memory. Memory has an address of 32 bits for each byte. -/

namespace Katela.Recovery

/-- What lies at each address. -/
abbrev Memory : Type := UInt32 → UInt8

namespace Memory

/-- A byte, kept as a read. -/
def fetch (memory : Memory) (address : UInt32) : Traced UInt32 UInt8 :=
  .read address (memory address)

/-- A little endian word. -/
def word (memory : Memory) (address : UInt32) : UInt32 :=
  (memory address).toUInt32 ||| (memory (address + 1)).toUInt32 <<< 8 |||
    (memory (address + 2)).toUInt32 <<< 16 ||| (memory (address + 3)).toUInt32 <<< 24

def fetchWord (memory : Memory) (address : UInt32) : Traced UInt32 UInt32 := do
  let _ ← memory.fetch address
  let _ ← memory.fetch (address + 1)
  let _ ← memory.fetch (address + 2)
  let _ ← memory.fetch (address + 3)
  return memory.word address

end Memory

/-- `same`, which stops at the first difference. -/
def same (memory : Memory) (address : UInt32) : List UInt8 → Traced UInt32 Bool
  | [] => return true
  | expected :: rest => do
      let byte ← memory.fetch address
      if byte ≠ expected then return false else same memory (address + 1) rest

/-- `sizeof(struct table_header)`. -/
def headerSize : UInt32 := 36

/-- The field `length` of a table. -/
def lengthOf (memory : Memory) (table : UInt32) : UInt32 := memory.word (table + 4)

/-- The field `rsdt`. -/
def rsdtOf (memory : Memory) (rsdp : UInt32) : UInt32 := memory.word (rsdp + 16)

/-! ## The root table -/

/-- The number of entries as `find_table` computes it. -/
def entryCount (memory : Memory) (rsdt : UInt32) : UInt32 :=
  (lengthOf memory rsdt - headerSize) / 4

/-- The loop of `find_table`. The reads are the entries, by their numbers. -/
def tableLoop (memory : Memory) (rsdt : UInt32) (signature : List UInt8) :
    (rounds i : Nat) → Traced Nat UInt32
  | 0, _ => return 0
  | rounds + 1, i => do
      let table ← .read i (memory.word (rsdt + headerSize + 4 * UInt32.ofNat i))
      if (same memory table signature).value then return table
      else tableLoop memory rsdt signature rounds (i + 1)

def rsdtSignature : List UInt8 := [0x52, 0x53, 0x44, 0x54]

/-- `find_table`; no table is the null pointer. -/
def findTable (memory : Memory) (rsdp : UInt32) (signature : List UInt8) : Traced Nat UInt32 :=
  let rsdt := rsdtOf memory rsdp
  if (same memory rsdt rsdtSignature).value then
    tableLoop memory rsdt signature (entryCount memory rsdt).toNat 0
  else return 0

/-! ## The sleep types -/

/-- The name `_S5_`. -/
def sleepName : List UInt8 := [0x5F, 0x53, 0x35, 0x5F]

def packageOp : UInt8 := 0x12
def bytePrefix : UInt8 := 0x0A

/-- The end of the body of the loop, from the length of the package on. -/
def packageTypes (memory : Memory) (q : UInt32) : Traced UInt32 (UInt8 × UInt8) := do
  let lead ← memory.fetch q
  let q := q + ((lead >>> 6 &&& 3).toUInt32 + 1) + 1
  let first ← memory.fetch q
  let q := if first = bytePrefix then q + 1 else q
  let typeA ← memory.fetch q
  let q := q + 1
  let second ← memory.fetch q
  let q := if second = bytePrefix then q + 1 else q
  let typeB ← memory.fetch q
  return (typeA, typeB)

theorem lookAhead_succ {p stop : UInt32} (inside : p + 8 < stop) :
    (p + 1 + 8).toNat = (p + 8).toNat + 1 := by
  have bound := stop.toNat_lt
  have isEight : (8 : UInt32).toNat = 8 := rfl
  have isOne : (1 : UInt32).toNat = 1 := rfl
  rw [UInt32.lt_iff_toNat_lt] at inside
  simp only [UInt32.toNat_add, isEight, isOne] at inside ⊢
  omega

/-- The loop of `find_sleep_types`. -/
def sleepLoop (memory : Memory) (stop p : UInt32) : Traced UInt32 (Option (UInt8 × UInt8)) :=
  if inside : p + 8 < stop then do
    let isName ← same memory p sleepName
    if isName then do
      let op ← memory.fetch (p + 4)
      if op ≠ packageOp then sleepLoop memory stop (p + 1)
      else do
        let types ← packageTypes memory (p + 4 + 1)
        return some types
    else sleepLoop memory stop (p + 1)
  else return none
termination_by 2 ^ 32 - (p + 8).toNat
decreasing_by
  all_goals
    have next := lookAhead_succ inside
    have bound := (p + 8).toNat_lt
    omega

/-- `find_sleep_types`. -/
def findSleepTypes (memory : Memory) (dsdt : UInt32) :
    Traced UInt32 (Option (UInt8 × UInt8)) := do
  let length ← memory.fetchWord (dsdt + 4)
  sleepLoop memory (dsdt + length) (dsdt + headerSize)

/-! ## Which reads are inside -/

/-- An address lies in the declared length of a table. -/
def Inside (memory : Memory) (table address : UInt32) : Prop :=
  address - table < lengthOf memory table

/-- An entry of the root table lies in the declared length. -/
def EntryInside (memory : Memory) (rsdt : UInt32) (i : Nat) : Prop :=
  headerSize.toNat + 4 * i + 4 ≤ (lengthOf memory rsdt).toNat

section Entries

variable {memory : Memory} {rsdt : UInt32} {signature : List UInt8}

theorem tableLoop_within {allowed : Nat → Prop} (rounds i : Nat)
    (all : ∀ j, i ≤ j → j < i + rounds → allowed j) :
    Traced.Within allowed (tableLoop memory rsdt signature rounds i) := by
  induction rounds generalizing i with
  | zero => exact Traced.pure_within 0
  | succ rounds induction =>
      unfold tableLoop
      rw [Traced.bind_within, Traced.read_within]
      refine ⟨all i (Nat.le_refl i) (by omega), ?_⟩
      split
      · exact Traced.pure_within _
      · exact induction (i + 1) fun j lower upper => all j (by omega) (by omega)

/-- The division gives the number of entries if the length counts the header. -/
theorem entryCount_of_le (whole : headerSize.toNat ≤ (lengthOf memory rsdt).toNat) :
    (entryCount memory rsdt).toNat = ((lengthOf memory rsdt).toNat - headerSize.toNat) / 4 := by
  unfold entryCount
  rw [UInt32.toNat_div, UInt32.toNat_sub_of_le _ _ (UInt32.le_iff_toNat_le.mpr whole)]
  rfl

/-- A length below the size of the header makes the difference wrap around. -/
theorem entryCount_pos_of_lt (short : (lengthOf memory rsdt).toNat < headerSize.toNat) :
    0 < (entryCount memory rsdt).toNat := by
  have isSize : headerSize.toNat = 36 := rfl
  have isFour : (4 : UInt32).toNat = 4 := rfl
  unfold entryCount
  rw [UInt32.toNat_div, UInt32.toNat_sub, isSize, isFour]
  omega

/-- The entries that are read lie in the root table exactly when its length counts the
header. -/
theorem findTable_within_iff (memory : Memory) (rsdp : UInt32) (signature : List UInt8) :
    Traced.Within (EntryInside memory (rsdtOf memory rsdp)) (findTable memory rsdp signature) ↔
      ((same memory (rsdtOf memory rsdp) rsdtSignature).value = true →
        headerSize.toNat ≤ (lengthOf memory (rsdtOf memory rsdp)).toNat) := by
  generalize isRsdt : rsdtOf memory rsdp = rsdt
  unfold findTable
  simp only [isRsdt]
  split
  · next isTable =>
      constructor
      · intro within _
        by_contra short
        have positive := entryCount_pos_of_lt (Nat.lt_of_not_le short)
        obtain ⟨rounds, isCount⟩ := Nat.exists_eq_succ_of_ne_zero (Nat.ne_of_gt positive)
        rw [isCount] at within
        unfold tableLoop at within
        rw [Traced.bind_within, Traced.read_within] at within
        have inside := within.1
        unfold EntryInside at inside
        omega
      · intro whole
        have whole := whole isTable
        have isCount := entryCount_of_le whole
        apply tableLoop_within
        intro j _ bound
        unfold EntryInside
        omega
  · next notTable => exact iff_of_true (Traced.pure_within 0) fun isTable => absurd isTable notTable

end Entries

/-! ## The bytes of the package -/

/-- The scan takes the address for the start of the package. -/
def NamesPackage (memory : Memory) (p : UInt32) : Prop :=
  (same memory p sleepName).value = true ∧ memory (p + 4) = packageOp

/-- The first name from an offset on that the scan reaches before its end. -/
structure FirstPackage (memory : Memory) (dsdt : UInt32) (start offset : Nat) : Prop where
  reached : start ≤ offset
  before : offset + 8 < (lengthOf memory dsdt).toNat
  names : NamesPackage memory (dsdt + UInt32.ofNat offset)
  first : ∀ earlier, start ≤ earlier → earlier < offset →
    ¬ NamesPackage memory (dsdt + UInt32.ofNat earlier)

def skipPrefix (memory : Memory) (q : UInt32) : UInt32 :=
  if memory q = bytePrefix then q + 1 else q

/-- The bytes of a package that are read after the encoded length: a prefix or the first
type, the first type, and the same for the second type. -/
def packagePlaces (memory : Memory) (p : UInt32) : List UInt32 :=
  let length := p + 4 + 1
  let start := length + ((memory length >>> 6 &&& 3).toUInt32 + 1) + 1
  let typeA := skipPrefix memory start
  let typeB := skipPrefix memory (typeA + 1)
  [start, typeA, typeA + 1, typeB]

section Package

variable {memory : Memory} {dsdt p : UInt32} {allowed : UInt32 → Prop}
variable {start offset : Nat}

theorem fetch_within (address : UInt32) :
    Traced.Within allowed (memory.fetch address) ↔ allowed address :=
  Traced.read_within _ _

theorem fetch_value (address : UInt32) : (memory.fetch address).value = memory address := rfl

theorem packageTypes_within :
    Traced.Within allowed (packageTypes memory (p + 4 + 1)) ↔
      allowed (p + 4 + 1) ∧ ∀ place ∈ packagePlaces memory p, allowed place := by
  unfold packageTypes packagePlaces
  generalize p + 4 + 1 = q
  rw [List.forall_mem_cons, List.forall_mem_cons, List.forall_mem_cons, List.forall_mem_singleton,
    Traced.bind_within, fetch_within]
  refine and_congr_right fun _ => ?_
  rw [Traced.bind_within, fetch_within]
  refine and_congr_right fun _ => ?_
  rw [Traced.bind_within, fetch_within]
  refine and_congr_right fun _ => ?_
  rw [Traced.bind_within, fetch_within]
  refine and_congr_right fun _ => ?_
  rw [Traced.bind_within, fetch_within]
  exact and_iff_left (Traced.pure_within _)

theorem offset_add (offset count : Nat) :
    dsdt + UInt32.ofNat offset + UInt32.ofNat count = dsdt + UInt32.ofNat (offset + count) := by
  rw [UInt32.ofNat_add, UInt32.add_assoc]

theorem same_within (word : List UInt8) (offset : Nat)
    (all : ∀ i < word.length, allowed (dsdt + UInt32.ofNat (offset + i))) :
    Traced.Within allowed (same memory (dsdt + UInt32.ofNat offset) word) := by
  induction word generalizing offset with
  | nil => exact Traced.pure_within true
  | cons expected rest induction =>
      have next : dsdt + UInt32.ofNat offset + 1 = dsdt + UInt32.ofNat (offset + 1) :=
        offset_add offset 1
      unfold same
      rw [Traced.bind_within, fetch_within]
      refine ⟨all 0 (Nat.zero_lt_succ _), ?_⟩
      split
      · exact Traced.pure_within false
      · rw [next]
        apply induction
        intro i bound
        rw [Nat.add_assoc, Nat.add_comm 1 i]
        exact all (i + 1) (Nat.succ_lt_succ bound)

theorem first_of_same_within {expected : UInt8} {rest : List UInt8}
    (within : Traced.Within allowed (same memory p (expected :: rest))) : allowed p := by
  unfold same at within
  rw [Traced.bind_within, fetch_within] at within
  exact within.1

theorem inside_offset (small : offset < 2 ^ 32) :
    Inside memory dsdt (dsdt + UInt32.ofNat offset) ↔ offset < (lengthOf memory dsdt).toNat := by
  unfold Inside
  rw [UInt32.add_comm, UInt32.add_sub_cancel, UInt32.lt_iff_toNat_lt, UInt32.toNat_ofNat',
    Nat.mod_eq_of_lt small]

theorem fetchWord_within :
    Traced.Within (Inside memory dsdt) (memory.fetchWord (dsdt + 4)) ↔
      8 ≤ (lengthOf memory dsdt).toNat := by
  have last : dsdt + 4 + 3 = dsdt + UInt32.ofNat 7 := offset_add 4 3
  have third : dsdt + 4 + 2 = dsdt + UInt32.ofNat 6 := offset_add 4 2
  have second : dsdt + 4 + 1 = dsdt + UInt32.ofNat 5 := offset_add 4 1
  have first : dsdt + 4 = dsdt + UInt32.ofNat 4 := rfl
  unfold Memory.fetchWord
  simp only [Traced.bind_within, fetch_within, Traced.pure_within, and_true]
  rw [last, third, second, first, inside_offset (by decide), inside_offset (by decide),
    inside_offset (by decide), inside_offset (by decide)]
  omega

/-- From a name on there is no other first one. -/
theorem FirstPackage.of_names (before : start + 8 < (lengthOf memory dsdt).toNat)
    (names : NamesPackage memory (dsdt + UInt32.ofNat start)) :
    FirstPackage memory dsdt start offset ↔ offset = start := by
  constructor
  · intro isFirst
    by_contra different
    have reached := isFirst.reached
    exact isFirst.first start (Nat.le_refl _) (by omega) names
  · rintro rfl
    exact ⟨(Nat.le_refl _), before, names, fun earlier lower upper => absurd lower (by omega)⟩

theorem FirstPackage.succ_iff (other : ¬ NamesPackage memory (dsdt + UInt32.ofNat start)) :
    FirstPackage memory dsdt (start + 1) offset ↔ FirstPackage memory dsdt start offset := by
  constructor
  · intro isFirst
    refine ⟨by have := isFirst.reached; omega, isFirst.before, isFirst.names, ?_⟩
    intro earlier lower upper
    rcases Nat.eq_or_lt_of_le lower with rfl | later
    · exact other
    · exact isFirst.first earlier later upper
  · intro isFirst
    have different : offset ≠ start := by
      rintro rfl
      exact other isFirst.names
    have reached := isFirst.reached
    exact ⟨by omega, isFirst.before, isFirst.names,
      fun earlier lower upper => isFirst.first earlier (by omega) upper⟩

/-- One round of the scan: without a name it goes on, with a name it ends there. -/
theorem sleepLoop_within_step {stop : UInt32} (inside : p + 8 < stop) :
    Traced.Within allowed (sleepLoop memory stop p) ↔
      Traced.Within allowed (same memory p sleepName) ∧
        ((same memory p sleepName).value = true → allowed (p + 4)) ∧
        (NamesPackage memory p →
          allowed (p + 4 + 1) ∧ ∀ place ∈ packagePlaces memory p, allowed place) ∧
        (¬ NamesPackage memory p → Traced.Within allowed (sleepLoop memory stop (p + 1))) := by
  unfold NamesPackage
  rw [sleepLoop, dif_pos inside, Traced.bind_within]
  refine and_congr_right fun _ => ?_
  by_cases isName : (same memory p sleepName).value = true
  · rw [if_pos isName, Traced.bind_within, fetch_within]
    by_cases isOp : memory (p + 4) = packageOp
    · have isFetched : ¬ (memory.fetch (p + 4)).value ≠ packageOp := fun other => other isOp
      rw [if_neg isFetched, Traced.bind_within, packageTypes_within]
      simp [isName, isOp]
    · have isFetched : (memory.fetch (p + 4)).value ≠ packageOp := isOp
      rw [if_pos isFetched]
      simp [isName, isOp]
  · rw [if_neg isName]
    simp [isName]

/-- The byte before the second type or its prefix is at least eight bytes behind the name. -/
theorem packagePlaces_far : ∃ far, 8 ≤ far ∧ far ≤ 12 ∧
    p + UInt32.ofNat far ∈ packagePlaces memory p := by
  have skip : (memory (p + 4 + 1) >>> 6 &&& 3).toNat ≤ 3 := by
    rw [UInt8.toNat_and]
    exact Nat.and_le_right
  have isSkip : (memory (p + 4 + 1) >>> 6 &&& 3).toUInt32 =
      UInt32.ofNat (memory (p + 4 + 1) >>> 6 &&& 3).toNat :=
    (UInt32.ofNat_uInt8ToNat _).symm
  unfold packagePlaces skipPrefix
  dsimp only
  rw [isSkip]
  generalize (memory (p + 4 + 1) >>> 6 &&& 3).toNat = skipped at skip
  have isStart : p + 4 + 1 + (UInt32.ofNat skipped + 1) + 1 =
      p + UInt32.ofNat (4 + 1 + skipped + 1 + 1) := by
    rw [← offset_add, ← offset_add, ← offset_add, ← offset_add, ← UInt32.add_assoc]
    rfl
  simp only [isStart]
  split
  · refine ⟨4 + 1 + skipped + 1 + 1 + 1 + 1, by omega, by omega, ?_⟩
    rw [← offset_add (4 + 1 + skipped + 1 + 1 + 1), ← offset_add (4 + 1 + skipped + 1 + 1)]
    exact List.mem_cons_of_mem _ (List.mem_cons_of_mem _ List.mem_cons_self)
  · refine ⟨4 + 1 + skipped + 1 + 1 + 1, by omega, by omega, ?_⟩
    rw [← offset_add (4 + 1 + skipped + 1 + 1)]
    exact List.mem_cons_of_mem _ (List.mem_cons_of_mem _ List.mem_cons_self)

/-- The look-ahead compares addresses, which wrap around. -/
theorem lookAhead_mod (offset : Nat) :
    dsdt + UInt32.ofNat offset + 8 < dsdt + lengthOf memory dsdt ↔
      (dsdt.toNat + (offset + 8)) % 2 ^ 32 <
        (dsdt.toNat + (lengthOf memory dsdt).toNat) % 2 ^ 32 := by
  have isNext : dsdt + UInt32.ofNat offset + 8 = dsdt + UInt32.ofNat (offset + 8) :=
    offset_add offset 8
  rw [isNext, UInt32.lt_iff_toNat_lt, UInt32.toNat_add, UInt32.toNat_add, UInt32.toNat_ofNat',
    Nat.add_mod_mod]

theorem lookAhead_begin :
    dsdt + 44 < dsdt + lengthOf memory dsdt ↔
      (dsdt.toNat + 44) % 2 ^ 32 < (dsdt.toNat + (lengthOf memory dsdt).toNat) % 2 ^ 32 := by
  have isBegin : dsdt + UInt32.ofNat 36 + 8 = dsdt + 44 := offset_add 36 8
  rw [← isBegin]
  exact lookAhead_mod 36

/-- As long as the look-ahead is in the table the scan goes on, wherever the table lies. -/
theorem lookAhead_iff (entered : dsdt + 44 < dsdt + lengthOf memory dsdt)
    (long : 44 < (lengthOf memory dsdt).toNat) (lower : 36 ≤ offset)
    (upper : offset + 8 ≤ (lengthOf memory dsdt).toNat) :
    dsdt + UInt32.ofNat offset + 8 < dsdt + lengthOf memory dsdt ↔
      offset + 8 < (lengthOf memory dsdt).toNat := by
  have bound := (lengthOf memory dsdt).toNat_lt
  have bound' := dsdt.toNat_lt
  rw [lookAhead_begin] at entered
  rw [lookAhead_mod]
  omega

/-- Where only the wrap of the address lets the scan of a short table begin, it goes on at
least until it has left the table. -/
theorem lookAhead_of_short (entered : dsdt + 44 < dsdt + lengthOf memory dsdt)
    (short : (lengthOf memory dsdt).toNat ≤ 44) (lower : 36 ≤ offset) (upper : offset ≤ 44) :
    dsdt + UInt32.ofNat offset + 8 < dsdt + lengthOf memory dsdt := by
  have bound := (lengthOf memory dsdt).toNat_lt
  have bound' := dsdt.toNat_lt
  rw [lookAhead_begin] at entered
  rw [lookAhead_mod]
  omega

/-- The scan of a table that is long enough reads inside of it exactly when the first
package does. -/
theorem sleepLoop_within_iff (entered : dsdt + 44 < dsdt + lengthOf memory dsdt)
    (long : 44 < (lengthOf memory dsdt).toNat) (lower : 36 ≤ start)
    (upper : start + 8 ≤ (lengthOf memory dsdt).toNat) :
    Traced.Within (Inside memory dsdt)
        (sleepLoop memory (dsdt + lengthOf memory dsdt) (dsdt + UInt32.ofNat start)) ↔
      ∀ offset, FirstPackage memory dsdt start offset →
        ∀ place ∈ packagePlaces memory (dsdt + UInt32.ofNat offset), Inside memory dsdt place := by
  have bound := (lengthOf memory dsdt).toNat_lt
  generalize isLeft : (lengthOf memory dsdt).toNat - 8 - start = left
  induction left generalizing start with
  | zero =>
      have atEnd : ¬ dsdt + UInt32.ofNat start + 8 < dsdt + lengthOf memory dsdt := by
        rw [lookAhead_iff entered long lower upper]
        omega
      rw [sleepLoop, dif_neg atEnd]
      refine iff_of_true (Traced.pure_within none) fun offset isFirst => ?_
      have reached := isFirst.reached
      have before := isFirst.before
      omega
  | succ left induction =>
      have before : start + 8 < (lengthOf memory dsdt).toNat := by omega
      have next : dsdt + UInt32.ofNat start + 1 = dsdt + UInt32.ofNat (start + 1) :=
        offset_add start 1
      have insideUpTo : ∀ count, count ≤ 8 →
          Inside memory dsdt (dsdt + UInt32.ofNat (start + count)) := fun count small =>
        (inside_offset (by omega)).mpr (by omega)
      have readsName : Traced.Within (Inside memory dsdt)
          (same memory (dsdt + UInt32.ofNat start) sleepName) :=
        same_within sleepName start fun i small => insideUpTo i (by
          have isLength : sleepName.length = 4 := rfl
          omega)
      have readsOp : Inside memory dsdt (dsdt + UInt32.ofNat start + 4) := by
        have isPlace : dsdt + UInt32.ofNat start + 4 = dsdt + UInt32.ofNat (start + 4) :=
          offset_add start 4
        rw [isPlace]
        exact insideUpTo 4 (by decide)
      have readsLead : Inside memory dsdt (dsdt + UInt32.ofNat start + 4 + 1) := by
        have isPlace : dsdt + UInt32.ofNat start + 4 + 1 = dsdt + UInt32.ofNat (start + 5) :=
          (congrArg (· + 1) (offset_add start 4)).trans (offset_add (start + 4) 1)
        rw [isPlace]
        exact insideUpTo 5 (by decide)
      rw [sleepLoop_within_step ((lookAhead_iff entered long lower upper).mpr before),
        and_iff_right readsName, and_iff_right fun _ => readsOp, and_iff_right readsLead]
      by_cases names : NamesPackage memory (dsdt + UInt32.ofNat start)
      · simp only [FirstPackage.of_names before names, names, forall_const, not_true_eq_false,
          false_implies, and_true, forall_eq]
      · simp only [← FirstPackage.succ_iff names, names, false_implies, not_false_eq_true,
          true_and, forall_const]
        rw [next]
        exact induction (by omega) (by omega) (by omega)

/-- The scan of a table that ends before the look-ahead at its start, where only the wrap of
the address lets it begin, leaves the table. -/
theorem sleepLoop_not_within (entered : dsdt + 44 < dsdt + lengthOf memory dsdt)
    (short : (lengthOf memory dsdt).toNat ≤ 44) (lower : 36 ≤ start) (upper : start ≤ 44) :
    ¬ Traced.Within (Inside memory dsdt)
      (sleepLoop memory (dsdt + lengthOf memory dsdt) (dsdt + UInt32.ofNat start)) := by
  generalize isLeft : 44 - start = left
  induction left generalizing start with
  | zero =>
      intro within
      have isName := ((sleepLoop_within_step (lookAhead_of_short entered short lower upper)).mp within).1
      have first := (inside_offset (by omega)).mp (first_of_same_within isName)
      omega
  | succ left induction =>
      intro within
      obtain ⟨isName, _, package, rest⟩ :=
        (sleepLoop_within_step (lookAhead_of_short entered short lower upper)).mp within
      have next : dsdt + UInt32.ofNat start + 1 = dsdt + UInt32.ofNat (start + 1) :=
        offset_add start 1
      by_cases names : NamesPackage memory (dsdt + UInt32.ofNat start)
      · obtain ⟨far, farLower, farUpper, isPlace⟩ :=
          @packagePlaces_far memory (dsdt + UInt32.ofNat start)
        have inside := (package names).2 _ isPlace
        rw [offset_add, inside_offset (by omega)] at inside
        omega
      · have rest := rest names
        rw [next] at rest
        exact induction (by omega) (by omega) (by omega) rest

/-- The scan reads inside of the table exactly when the length counts its own field, the scan
does not begin before the end by a wrap, and the first package is inside. -/
theorem findSleepTypes_within_iff (memory : Memory) (dsdt : UInt32) :
    Traced.Within (Inside memory dsdt) (findSleepTypes memory dsdt) ↔
      8 ≤ (lengthOf memory dsdt).toNat ∧
        (dsdt + 44 < dsdt + lengthOf memory dsdt →
          44 < (lengthOf memory dsdt).toNat ∧
            ∀ offset, FirstPackage memory dsdt 36 offset →
              ∀ place ∈ packagePlaces memory (dsdt + UInt32.ofNat offset),
                Inside memory dsdt place) := by
  have isBegin : dsdt + headerSize = dsdt + UInt32.ofNat 36 := rfl
  have isLook : dsdt + UInt32.ofNat 36 + 8 = dsdt + 44 := offset_add 36 8
  unfold findSleepTypes
  rw [Traced.bind_within, fetchWord_within]
  refine and_congr_right fun _ => ?_
  change Traced.Within _ (sleepLoop memory (dsdt + lengthOf memory dsdt) (dsdt + headerSize)) ↔ _
  rw [isBegin]
  by_cases entered : dsdt + 44 < dsdt + lengthOf memory dsdt
  · rw [forall_prop_of_true entered]
    by_cases long : 44 < (lengthOf memory dsdt).toNat
    · rw [and_iff_right long]
      exact sleepLoop_within_iff entered long (Nat.le_refl _) (by omega)
    · refine iff_of_false ?_ fun whole => long whole.1
      exact sleepLoop_not_within entered (Nat.le_of_not_lt long) (Nat.le_refl _) (by decide)
  · rw [sleepLoop, dif_neg (isLook ▸ entered)]
    exact iff_of_true (Traced.pure_within none) fun enters => absurd enters entered

end Package

/-- A root table of the declared length zero, whose first entry is found. -/
def shortTable : Memory := fun address =>
  if address = 17 then 1
  else if address = 256 then 0x52 else if address = 257 then 0x53
  else if address = 258 then 0x44 else if address = 259 then 0x54
  else if address = 293 then 2
  else if address = 512 then 0x46 else if address = 513 then 0x41
  else if address = 514 then 0x43 else if address = 515 then 0x50
  else 0

end Katela.Recovery
