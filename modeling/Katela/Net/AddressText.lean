import Mathlib.Tactic.IntervalCases
import Katela.Net.Dns

/-! # Addresses as text

A model of the parsers and the formatters of `net/addr.c`. A pointer into a string is the
list of the bytes from there to the terminator, and a read behind the terminator is
outside. The error of a parser carries what the caller's address holds after it. -/

namespace Katela.Net

/-- A string as it lies in memory. -/
def CString.memory (text : CString) : List UInt8 := text.characters ++ [0]

def colon : UInt8 := 58

def minus : UInt8 := 45

/-! ## The parsers -/

def hexValue (c : UInt8) : Option Nat :=
  if c ≥ 48 ∧ c ≤ 57 then some (c.toNat - 48)
  else if c ≥ 97 ∧ c ≤ 102 then some (c.toNat - 97 + 10)
  else if c ≥ 65 ∧ c ≤ 70 then some (c.toNat - 65 + 10)
  else none

def hexAt (text : List UInt8) (index : Nat) : Checked Unit Nat := do
  match hexValue (← Checked.get text index) with
  | some value => .done value
  | none => .failed ()

/-- The two digits of one byte, and the pointer behind them. -/
def macGroup (text : List UInt8) : Checked Unit (UInt8 × List UInt8) := do
  let high ← hexAt text 0
  let low ← hexAt text 1
  .done (UInt8.ofNat (high <<< 4 ||| low), text.drop 2)

def isDigit (c : UInt8) : Bool := c ≥ 48 ∧ c ≤ 57

/-- The digits of one byte. -/
def digitLoop (value digits : Nat) : List UInt8 → Checked Unit (Nat × Nat × List UInt8)
  | [] => .outside
  | c :: rest =>
      if isDigit c then
        let value := value * 10 + (c.toNat - 48)
        let digits := digits + 1
        if digits > 3 ∨ value > 255 then .failed () else digitLoop value digits rest
      else .done (value, digits, c :: rest)

def ipv4Group (text : List UInt8) : Checked Unit (UInt8 × List UInt8) := do
  let (value, digits, rest) ← digitLoop 0 0 text
  if digits = 0 then .failed () else .done (UInt8.ofNat value, rest)

def Address.cons {size : Nat} (byte : UInt8) (bytes : Address size) : Address (size + 1) :=
  ⟨byte :: bytes.1, congrArg (· + 1) bytes.2⟩

/-- The loop of both parsers: groups with a separator behind each but the last. -/
def groupsLoop (group : List UInt8 → Checked Unit (UInt8 × List UInt8))
    (isSeparator : UInt8 → Bool) :
    (size : Nat) → List UInt8 → Checked Unit (Address size × List UInt8)
  | 0, text => .done (⟨[], rfl⟩, text)
  | size + 1, text => do
      let (byte, text) ← group text
      if size = 0 then
        let (bytes, text) ← groupsLoop group isSeparator size text
        .done (bytes.cons byte, text)
      else
        let separator ← Checked.get text 0
        if isSeparator separator then
          let (bytes, text) ← groupsLoop group isSeparator size (text.drop 1)
          .done (bytes.cons byte, text)
        else .failed ()

def addressParse (group : List UInt8 → Checked Unit (UInt8 × List UInt8))
    (isSeparator : UInt8 → Bool) {size : Nat} (text : List UInt8) (addr : Address size) :
    Checked (Address size) (Address size) :=
  (groupsLoop group isSeparator size text).recover (fun _ => .failed addr)
    fun (result, text) => do
      let c ← Checked.get text 0
      if c = 0 then .done result else .failed addr

def macParse (text : List UInt8) (addr : MacAddr) : Checked MacAddr MacAddr :=
  addressParse macGroup (fun c => c = colon ∨ c = minus) text addr

def ipv4Parse (text : List UInt8) (addr : Ipv4Addr) : Checked Ipv4Addr Ipv4Addr :=
  addressParse ipv4Group (fun c => c = dot) text addr

/-! ## The formatters

Both give the bytes that they store, with the terminator. -/

/-- The array `digits`, without its terminator. -/
def hexDigits : List UInt8 :=
  [48, 49, 50, 51, 52, 53, 54, 55, 56, 57, 97, 98, 99, 100, 101, 102]

def macDigits (byte : UInt8) : List UInt8 :=
  [hexDigits.getD (byte >>> 4).toNat 0, hexDigits.getD (byte &&& 0x0F).toNat 0]

def ipv4Digits (value : UInt8) : List UInt8 :=
  (if value ≥ 100 then [48 + value / 100] else []) ++
    (if value ≥ 10 then [48 + value / 10 % 10] else []) ++ [48 + value % 10]

def formatLoop (digits : UInt8 → List UInt8) (separator : UInt8) : List UInt8 → List UInt8
  | [] => [0]
  | byte :: bytes =>
      digits byte ++ (if bytes = [] then [] else [separator]) ++
        formatLoop digits separator bytes

def macFormat (addr : MacAddr) : List UInt8 := formatLoop macDigits colon addr.1

def ipv4Format (addr : Ipv4Addr) : List UInt8 := formatLoop ipv4Digits dot addr.1

def macStringSize : Nat := 18

def ipv4StringSize : Nat := 16

/-! ## What the text of an address is -/

/-- Groups, one for each byte, with a separator between two of them. -/
inductive Separated (Group : List UInt8 → UInt8 → Prop) (Separator : UInt8 → Prop) :
    List UInt8 → List UInt8 → Prop where
  | last {group : List UInt8} {byte : UInt8} (isGroup : Group group byte) :
      Separated Group Separator group [byte]
  | more {group characters bytes : List UInt8} {byte separator : UInt8}
      (isGroup : Group group byte) (isSeparator : Separator separator)
      (rest : Separated Group Separator characters bytes) :
      Separated Group Separator (group ++ separator :: characters) (byte :: bytes)

def decimalValue (group : List UInt8) : Nat :=
  group.foldl (fun value c => value * 10 + (c.toNat - 48)) 0

/-- One to three decimal digits with the value of a byte. -/
structure DecimalGroup (group : List UInt8) (byte : UInt8) : Prop where
  nonempty : 1 ≤ group.length
  short : group.length ≤ 3
  digits : ∀ c ∈ group, 48 ≤ c.toNat ∧ c.toNat ≤ 57
  value : decimalValue group = byte.toNat

def hexCapitals : List UInt8 :=
  [48, 49, 50, 51, 52, 53, 54, 55, 56, 57, 65, 66, 67, 68, 69, 70]

/-- A hexadecimal digit of either case. -/
def HexDigit (c : UInt8) (value : Nat) : Prop :=
  hexDigits[value]? = some c ∨ hexCapitals[value]? = some c

/-- Two hexadecimal digits, the higher one first. -/
def HexGroup (group : List UInt8) (byte : UInt8) : Prop :=
  ∃ high low highValue lowValue, group = [high, low] ∧ HexDigit high highValue ∧
    HexDigit low lowValue ∧ byte.toNat = 16 * highValue + lowValue

def IsIpv4Text (characters : List UInt8) (addr : Ipv4Addr) : Prop :=
  Separated DecimalGroup (fun c => c = dot) characters addr.1

def IsMacText (characters : List UInt8) (addr : MacAddr) : Prop :=
  Separated HexGroup (fun c => c = colon ∨ c = minus) characters addr.1

/-- A parser accepts exactly the texts of addresses. A text that it refuses leaves the
caller's address, and no read is behind the terminator. -/
def ParsesExactly {size : Nat}
    (parse : List UInt8 → Address size → Checked (Address size) (Address size))
    (IsText : List UInt8 → Address size → Prop) : Prop :=
  ∀ (text : CString) (addr : Address size),
    (∀ value, parse text.memory addr = .done value ↔ IsText text.characters value) ∧
      ((∀ value, ¬ IsText text.characters value) →
        parse text.memory addr = .failed addr)

/-- A formatter stores a string that fits, and parsing it gives the address back. -/
def FormatsExactly {size : Nat} (format : Address size → List UInt8) (capacity : Nat)
    (parse : List UInt8 → Address size → Checked (Address size) (Address size)) : Prop :=
  ∀ addr, (format addr).length ≤ capacity ∧
    ∃ text : CString, format addr = text.memory ∧
      ∀ old, parse text.memory old = .done addr

/-! ## The loop over the groups -/

theorem exists_first (behind : List UInt8) :
    ∃ first rest, behind ++ [0] = first :: rest :=
  List.exists_cons_of_ne_nil (List.append_ne_nil_of_right_ne_nil _ (by decide))

/-- What the loop relies on in the reader of one group. -/
structure ReadsGroups (group : List UInt8 → Checked Unit (UInt8 × List UInt8))
    (isSeparator : UInt8 → Bool) (Group : List UInt8 → UInt8 → Prop)
    (Separator : UInt8 → Prop) : Prop where
  separator (c : UInt8) : isSeparator c = true ↔ Separator c
  noTerminator : ¬ Separator 0
  safe (characters : List UInt8) : (group (characters ++ [0])).Safe
  sound {characters rest : List UInt8} {byte : UInt8} (terminated : 0 ∉ characters)
    (isDone : group (characters ++ [0]) = .done (byte, rest)) :
    ∃ front behind, characters = front ++ behind ∧ rest = behind ++ [0] ∧
      Group front byte
  complete {front rest : List UInt8} {byte c : UInt8} (isGroup : Group front byte)
    (isEnd : c = 0 ∨ Separator c) :
    group (front ++ c :: rest) = .done (byte, c :: rest)

section Groups

variable {group : List UInt8 → Checked Unit (UInt8 × List UInt8)}
  {isSeparator : UInt8 → Bool} {Group : List UInt8 → UInt8 → Prop}
  {Separator : UInt8 → Prop}

theorem Separated.ne_nil {characters bytes : List UInt8}
    (separated : Separated Group Separator characters bytes) : bytes ≠ [] := by
  cases separated <;> exact List.cons_ne_nil _ _

/-- The round for a group that is not the last. -/
theorem groupsLoop_more {text rest : List UInt8} {byte separator : UInt8} {size : Nat}
    (isMore : size ≠ 0)
    (isDone : group text = .done (byte, separator :: rest)) :
    groupsLoop group isSeparator (size + 1) text =
      if isSeparator separator then do
        let (bytes, text) ← groupsLoop group isSeparator size rest
        .done (bytes.cons byte, text)
      else .failed () := by
  have isFirst : (Checked.get (separator :: rest) 0 : Checked Unit UInt8) =
      .done separator := rfl
  rw [groupsLoop, isDone]
  simp only [Checked.done_bind, if_neg isMore, isFirst, List.drop_succ_cons, List.drop_zero]

theorem groupsLoop_last {text rest : List UInt8} {byte : UInt8}
    (isDone : group text = .done (byte, rest)) :
    groupsLoop group isSeparator 1 text = .done (⟨[byte], rfl⟩, rest) := by
  rw [groupsLoop, isDone]
  rfl

theorem groupsLoop_complete (reads : ReadsGroups group isSeparator Group Separator)
    {characters bytes : List UInt8} (separated : Separated Group Separator characters bytes) :
    ∀ {size : Nat} (isSize : bytes.length = size),
      groupsLoop group isSeparator size (characters ++ [0]) = .done (⟨bytes, isSize⟩, [0]) := by
  induction separated with
  | last isGroup =>
      rintro _ rfl
      exact groupsLoop_last (reads.complete isGroup (Or.inl rfl))
  | @more front characters bytes byte separator isGroup isSep rest ih =>
      rintro _ rfl
      have isMore : bytes.length ≠ 0 := by
        rw [ne_eq, List.length_eq_zero_iff]
        exact rest.ne_nil
      have isDone := @ReadsGroups.complete _ _ _ _ reads _ (characters ++ [0]) _ _ isGroup (Or.inr isSep)
      rw [List.append_assoc, List.cons_append]
      refine (groupsLoop_more isMore isDone).trans ?_
      rw [if_pos ((reads.separator separator).mpr isSep), ih rfl]
      rfl

/-- Between two groups, the pointer is at a separator and not at the terminator. -/
theorem behind_separator (reads : ReadsGroups group isSeparator Group Separator)
    {behind : List UInt8} {first : UInt8} {rest : List UInt8}
    (isBehind : behind ++ [0] = first :: rest) (isSep : isSeparator first = true) :
    ∃ characters, behind = first :: characters ∧ rest = characters ++ [0] := by
  cases behind with
  | nil =>
      cases isBehind
      exact absurd ((reads.separator 0).mp isSep) reads.noTerminator
  | cons head characters =>
      cases isBehind
      exact ⟨characters, rfl, rfl⟩

theorem groupsLoop_sound (reads : ReadsGroups group isSeparator Group Separator) :
    ∀ (size : Nat) {characters rest : List UInt8} {bytes : Address (size + 1)},
      0 ∉ characters →
      groupsLoop group isSeparator (size + 1) (characters ++ [0]) = .done (bytes, rest) →
      ∃ front behind, characters = front ++ behind ∧ rest = behind ++ [0] ∧
        Separated Group Separator front bytes.1 := by
  intro size
  induction size with
  | zero =>
      intro characters rest bytes terminated isDone
      rcases Checked.bind_eq_done isDone with ⟨⟨byte, text⟩, isByte, isDone⟩
      cases isDone
      rcases reads.sound terminated isByte with ⟨front, behind, isFront, isBehind, isGroup⟩
      exact ⟨front, behind, isFront, isBehind, .last isGroup⟩
  | succ size ih =>
      intro characters rest bytes terminated isDone
      rcases Checked.bind_eq_done isDone with ⟨⟨byte, text⟩, isByte, _⟩
      rcases reads.sound terminated isByte with ⟨front, behind, isFront, isText, isGroup⟩
      rcases exists_first behind with ⟨first, text, isCons⟩
      rw [isText, isCons] at isByte
      rw [groupsLoop_more (Nat.succ_ne_zero size) isByte] at isDone
      split at isDone
      · next isSep =>
          rcases behind_separator reads isCons isSep with ⟨characters', isBehind, isRest⟩
          rcases Checked.bind_eq_done isDone with ⟨⟨later, end'⟩, isLater, isDone⟩
          cases isDone
          subst isFront isBehind isRest
          have terminated' : 0 ∉ characters' := by
            intro member
            exact terminated (List.mem_append_right _ (List.mem_cons_of_mem _ member))
          rcases ih terminated' isLater with ⟨front', behind', isFront', isBehind', separated⟩
          refine ⟨front ++ first :: front', behind', ?_, isBehind',
            .more isGroup ((reads.separator first).mp isSep) separated⟩
          rw [isFront', List.append_assoc, List.cons_append]
      · cases isDone

theorem groupsLoop_safe (reads : ReadsGroups group isSeparator Group Separator) :
    ∀ (size : Nat) {characters : List UInt8}, 0 ∉ characters →
      (groupsLoop group isSeparator size (characters ++ [0])).Safe := by
  intro size
  induction size with
  | zero =>
      intro characters _
      trivial
  | succ size ih =>
      intro characters terminated
      refine Checked.Safe.bind (reads.safe characters) ?_
      rintro ⟨byte, text⟩ isByte
      rcases reads.sound terminated isByte with ⟨front, behind, isFront, rfl, _⟩
      subst isFront
      by_cases isLast : size = 0
      · subst isLast
        trivial
      rcases exists_first behind with ⟨first, rest, isCons⟩
      have isFirst : (Checked.get (behind ++ [0]) 0 : Checked Unit UInt8) = .done first := by
        rw [isCons]
        rfl
      simp only [if_neg isLast, isFirst, Checked.done_bind]
      split
      · next isSep =>
          rcases behind_separator reads isCons isSep with ⟨characters', rfl, _⟩
          have terminated' : 0 ∉ characters' := by
            intro member
            exact terminated (List.mem_append_right _ (List.mem_cons_of_mem _ member))
          refine Checked.Safe.bind (ih terminated') ?_
          intro _ _
          trivial
      · trivial

theorem addressParse_complete (reads : ReadsGroups group isSeparator Group Separator)
    {size : Nat} {characters : List UInt8} {value : Address size}
    (separated : Separated Group Separator characters value.1) (addr : Address size) :
    addressParse group isSeparator (characters ++ [0]) addr = .done value := by
  unfold addressParse
  rw [groupsLoop_complete reads separated value.2]
  rfl

theorem addressParse_sound (reads : ReadsGroups group isSeparator Group Separator)
    {size : Nat} {text : CString} {addr value : Address (size + 1)}
    (isDone : addressParse group isSeparator text.memory addr = .done value) :
    Separated Group Separator text.characters value.1 := by
  rcases Checked.recover_eq_done isDone with ⟨⟨result, rest⟩, isResult, isEnd⟩ | ⟨_, _, isEnd⟩
  · rcases groupsLoop_sound reads size text.terminated isResult with
      ⟨front, behind, isFront, rfl, separated⟩
    rcases Checked.bind_eq_done isEnd with ⟨c, isC, isEnd⟩
    split at isEnd
    · next isTerminator =>
        cases isEnd
        cases behind with
        | nil =>
            rw [isFront, List.append_nil]
            exact separated
        | cons head behind =>
            cases isC
            exfalso
            apply text.terminated
            rw [isFront, ← isTerminator]
            exact List.mem_append_right _ List.mem_cons_self
    · cases isEnd
  · cases isEnd

/-- Every outcome of a parser is an address or a refusal that keeps the caller's. -/
theorem addressParse_outcome (reads : ReadsGroups group isSeparator Group Separator)
    {size : Nat} (text : CString) (addr : Address (size + 1)) :
    addressParse group isSeparator text.memory addr = .failed addr ∨
      ∃ value, addressParse group isSeparator text.memory addr = .done value := by
  have safe := groupsLoop_safe reads (size + 1) text.terminated
  unfold addressParse CString.memory
  cases isLoop : groupsLoop group isSeparator (size + 1) (text.characters ++ [0]) with
  | done result =>
      rcases groupsLoop_sound reads size text.terminated isLoop with
        ⟨front, behind, _, isRest, _⟩
      rcases exists_first behind with ⟨first, rest, isCons⟩
      have isFirst : (Checked.get result.2 0 : Checked (Address (size + 1)) UInt8) =
          .done first := by
        rw [isRest, isCons]
        rfl
      simp only [Checked.recover, isFirst, Checked.done_bind]
      split
      · exact Or.inr ⟨_, rfl⟩
      · exact Or.inl rfl
  | failed => exact Or.inl rfl
  | outside =>
      rw [isLoop] at safe
      exact safe.elim
  | endless =>
      rw [isLoop] at safe
      exact safe.elim

theorem addressParse_exactly (reads : ReadsGroups group isSeparator Group Separator)
    (size : Nat) :
    @ParsesExactly (size + 1) (addressParse group isSeparator)
      fun characters addr => Separated Group Separator characters addr.1 := by
  intro text addr
  have exactly : ∀ value, addressParse group isSeparator text.memory addr = .done value ↔
      Separated Group Separator text.characters value.1 := by
    intro value
    constructor
    · exact addressParse_sound reads
    · intro separated
      exact addressParse_complete reads separated addr
  refine ⟨exactly, ?_⟩
  intro noText
  rcases addressParse_outcome reads text addr with failed | ⟨value, isDone⟩
  · exact failed
  · exact absurd ((exactly value).mp isDone) (noText value)

end Groups

/-! ## Decimal groups -/

def readDigits (value : Nat) (group : List UInt8) : Nat :=
  group.foldl (fun value c => value * 10 + (c.toNat - 48)) value

theorem readDigits_cons (value : Nat) (c : UInt8) (group : List UInt8) :
    readDigits value (c :: group) = readDigits (value * 10 + (c.toNat - 48)) group := by
  unfold readDigits
  rw [List.foldl_cons]

theorem le_readDigits (group : List UInt8) : ∀ value, value ≤ readDigits value group := by
  induction group with
  | nil =>
      intro value
      exact Nat.le_refl value
  | cons c group ih =>
      intro value
      rw [readDigits_cons]
      have later := ih (value * 10 + (c.toNat - 48))
      omega

theorem isDigit_iff (c : UInt8) : isDigit c = true ↔ 48 ≤ c.toNat ∧ c.toNat ≤ 57 := by
  unfold isDigit
  rw [decide_eq_true_iff, ge_iff_le, UInt8.le_iff_toNat_le, UInt8.le_iff_toNat_le]
  rfl

theorem digitLoop_safe (characters : List UInt8) :
    ∀ value digits, (digitLoop value digits (characters ++ [0])).Safe := by
  induction characters with
  | nil =>
      intro value digits
      trivial
  | cons c characters ih =>
      intro value digits
      rw [List.cons_append, digitLoop]
      split
      · dsimp only
        split
        · trivial
        · exact ih _ _
      · trivial

theorem digitLoop_sound (characters : List UInt8) :
    ∀ {value digits last count : Nat} {rest : List UInt8}, value ≤ 255 → digits ≤ 3 →
      digitLoop value digits (characters ++ [0]) = .done (last, count, rest) →
      ∃ front behind, characters = front ++ behind ∧ rest = behind ++ [0] ∧
        (∀ c ∈ front, 48 ≤ c.toNat ∧ c.toNat ≤ 57) ∧ last = readDigits value front ∧
        count = digits + front.length ∧ last ≤ 255 ∧ count ≤ 3 := by
  induction characters with
  | nil =>
      intro value digits last count rest small few isDone
      cases isDone
      exact ⟨[], [], rfl, rfl, nofun, rfl, rfl, small, few⟩
  | cons c characters ih =>
      intro value digits last count rest small few isDone
      rw [List.cons_append, digitLoop] at isDone
      split at isDone
      · next digit =>
          dsimp only at isDone
          split at isDone
          · cases isDone
          · next fits =>
              rw [not_or, not_lt, not_lt] at fits
              rcases ih fits.2 fits.1 isDone with
                ⟨front, behind, isFront, isRest, digits', isLast, isCount, bounds⟩
              refine ⟨c :: front, behind, ?_, isRest, ?_, isLast, ?_, bounds⟩
              · rw [isFront, List.cons_append]
              · intro other member
                rcases List.mem_cons.mp member with same | later
                · rw [same]
                  exact (isDigit_iff c).mp digit
                · exact digits' other later
              · rw [isCount, List.length_cons]
                omega
      · cases isDone
        exact ⟨[], c :: characters, rfl, rfl, nofun, rfl, rfl, small, few⟩

theorem digitLoop_complete {c : UInt8} (noDigit : isDigit c = false) (rest front : List UInt8) :
    ∀ {value digits : Nat}, (∀ other ∈ front, 48 ≤ other.toNat ∧ other.toNat ≤ 57) →
      digits + front.length ≤ 3 → readDigits value front ≤ 255 →
      digitLoop value digits (front ++ c :: rest) =
        .done (readDigits value front, digits + front.length, c :: rest) := by
  induction front with
  | nil =>
      intro value digits _ _ _
      rw [List.nil_append, digitLoop, if_neg (by rw [noDigit]; decide)]
      rfl
  | cons first front ih =>
      intro value digits areDigits few small
      rw [List.length_cons] at few
      rw [readDigits_cons] at small
      have fits := Nat.le_trans (le_readDigits front _) small
      have isFirst := (isDigit_iff first).mpr (areDigits first List.mem_cons_self)
      rw [List.cons_append, digitLoop, if_pos isFirst]
      dsimp only
      rw [if_neg (by omega), ih (fun other member => areDigits other (.tail _ member))
        (by omega) small, readDigits_cons, List.length_cons, Nat.add_assoc, Nat.add_comm 1]

theorem ipv4Group_reads :
    ReadsGroups ipv4Group (fun c => c = dot) DecimalGroup (fun c => c = dot) where
  separator c := decide_eq_true_iff
  noTerminator := by decide
  safe characters := by
    refine Checked.Safe.bind (digitLoop_safe characters 0 0) ?_
    rintro ⟨value, digits, rest⟩ _
    dsimp only
    split <;> trivial
  sound := by
    intro characters rest byte _ isDone
    rcases Checked.bind_eq_done isDone with ⟨⟨value, digits, rest'⟩, isLoop, isEnd⟩
    rcases digitLoop_sound characters (by decide) (by decide) isLoop with
      ⟨front, behind, isFront, isRest, areDigits, isValue, isCount, small, few⟩
    dsimp only at isEnd
    split at isEnd
    · cases isEnd
    · next some =>
        cases isEnd
        refine ⟨front, behind, isFront, isRest, ?_, ?_, areDigits, ?_⟩
        · omega
        · omega
        · rw [UInt8.toNat_ofNat_of_lt' (show value < 256 by omega)]
          exact isValue.symm
  complete := by
    intro front rest byte c isGroup isEnd
    have noDigit : isDigit c = false := by
      rcases isEnd with rfl | rfl <;> rfl
    have isValue : readDigits 0 front = byte.toNat := isGroup.value
    have small := byte.toNat_lt
    have few := isGroup.short
    have some := isGroup.nonempty
    unfold ipv4Group
    rw [digitLoop_complete noDigit rest front isGroup.digits (by omega) (by omega), isValue]
    simp only [Checked.done_bind]
    rw [if_neg (by omega), UInt8.ofNat_toNat]

/-! ## Hexadecimal groups -/

theorem hexDigit_iff (c : UInt8) (value : Nat) :
    HexDigit c value ↔ (value < 10 ∧ c.toNat = 48 + value) ∨
      (10 ≤ value ∧ value < 16 ∧ (c.toNat = 87 + value ∨ c.toNat = 55 + value)) := by
  unfold HexDigit
  by_cases small : value < 16
  · interval_cases value <;>
      simp [hexDigits, hexCapitals, ← UInt8.toNat_inj, eq_comm]
  · rw [List.getElem?_eq_none (by simpa [hexDigits] using small),
      List.getElem?_eq_none (by simpa [hexCapitals] using small)]
    constructor
    · rintro (impossible | impossible) <;> cases impossible
    · omega

theorem hexValue_iff (c : UInt8) (value : Nat) :
    hexValue c = some value ↔ HexDigit c value := by
  rw [hexDigit_iff]
  unfold hexValue
  simp only [ge_iff_le, UInt8.le_iff_toNat_le, UInt8.reduceToNat]
  split_ifs
  · rw [Option.some.injEq]
    omega
  · rw [Option.some.injEq]
    omega
  · rw [Option.some.injEq]
    omega
  · constructor
    · nofun
    · omega

theorem toNat_hexByte {high low : Nat} (highSmall : high < 16) (lowSmall : low < 16) :
    (UInt8.ofNat (high <<< 4 ||| low)).toNat = 16 * high + low := by
  rw [← Nat.shiftLeft_add_eq_or_of_lt (show low < 2 ^ 4 by omega), Nat.shiftLeft_eq,
    UInt8.toNat_ofNat_of_lt' (show high * 2 ^ 4 + low < 256 by omega)]
  omega

theorem HexDigit.value_lt {c : UInt8} {value : Nat} (digit : HexDigit c value) :
    value < 16 := by
  have cases := (hexDigit_iff c value).mp digit
  omega

theorem HexDigit.ne_zero {c : UInt8} {value : Nat} (digit : HexDigit c value) : c ≠ 0 := by
  rintro rfl
  have cases := (hexDigit_iff 0 value).mp digit
  have isZero : (0 : UInt8).toNat = 0 := rfl
  omega

theorem hexAt_done {text : List UInt8} {index value : Nat}
    (isDone : hexAt text index = .done value) :
    ∃ c, text[index]? = some c ∧ HexDigit c value := by
  rcases Checked.bind_eq_done isDone with ⟨c, isC, isValue⟩
  have isHead := (getElem?_of_drop (Checked.drop_of_get isC)).1
  cases isHex : hexValue c with
  | none =>
      rw [isHex] at isValue
      cases isValue
  | some found =>
      rw [isHex] at isValue
      cases isValue
      exact ⟨c, isHead, (hexValue_iff c value).mp isHex⟩

theorem hexAt_safe {text : List UInt8} {index : Nat} (inside : index < text.length) :
    (hexAt text index).Safe := by
  unfold hexAt
  rw [Checked.get_of_lt inside, Checked.done_bind]
  split <;> trivial

theorem hexAt_complete {text : List UInt8} {index value : Nat} {c : UInt8}
    (isC : text[index]? = some c) (digit : HexDigit c value) :
    hexAt text index = .done value := by
  unfold hexAt
  rw [Checked.get_eq isC, Checked.done_bind, (hexValue_iff c value).mpr digit]

theorem macGroup_reads :
    ReadsGroups macGroup (fun c => c = colon ∨ c = minus) HexGroup
      (fun c => c = colon ∨ c = minus) where
  separator c := decide_eq_true_iff
  noTerminator := by decide
  safe characters := by
    refine Checked.Safe.bind (hexAt_safe (by simp)) ?_
    intro high isHigh
    -- The first character is a digit, so the terminator is behind it.
    have inside : 1 < (characters ++ [0]).length := by
      rcases hexAt_done isHigh with ⟨c, isC, digit⟩
      cases characters with
      | nil =>
          cases isC
          exact absurd rfl digit.ne_zero
      | cons first rest => simp
    refine Checked.Safe.bind (hexAt_safe inside) ?_
    intro low _
    trivial
  sound := by
    intro characters rest byte _ isDone
    rcases Checked.bind_eq_done isDone with ⟨high, isHigh, isDone⟩
    rcases Checked.bind_eq_done isDone with ⟨low, isLow, isDone⟩
    cases isDone
    rcases hexAt_done isHigh with ⟨first, isFirst, highDigit⟩
    rcases hexAt_done isLow with ⟨second, isSecond, lowDigit⟩
    have isByte := toNat_hexByte highDigit.value_lt lowDigit.value_lt
    match characters with
    | [] =>
        cases isFirst
        exact absurd rfl highDigit.ne_zero
    | [only] =>
        cases isSecond
        exact absurd rfl lowDigit.ne_zero
    | a :: b :: behind =>
        cases isFirst
        cases isSecond
        exact ⟨[first, second], behind, rfl, rfl, first, second, high, low, rfl, highDigit,
          lowDigit, isByte⟩
  complete := by
    rintro _ rest byte c ⟨first, second, high, low, rfl, highDigit, lowDigit, isByte⟩ _
    have isHigh : hexAt ([first, second] ++ c :: rest) 0 = .done high :=
      hexAt_complete rfl highDigit
    have isLow : hexAt ([first, second] ++ c :: rest) 1 = .done low :=
      hexAt_complete rfl lowDigit
    have same : UInt8.ofNat (high <<< 4 ||| low) = byte := by
      apply UInt8.toNat_inj.mp
      rw [toNat_hexByte highDigit.value_lt lowDigit.value_lt, isByte]
    unfold macGroup
    rw [isHigh, Checked.done_bind, isLow, Checked.done_bind, same]
    rfl

/-! ## Formatted text -/

section Formatting

variable {digits : UInt8 → List UInt8} {separator : UInt8}
  {Group : List UInt8 → UInt8 → Prop} {Separator : UInt8 → Prop}

theorem formatLoop_separated (isGroup : ∀ byte, Group (digits byte) byte)
    (isSeparator : Separator separator) (bytes : List UInt8) :
    bytes ≠ [] → ∃ characters, formatLoop digits separator bytes = characters ++ [0] ∧
      Separated Group Separator characters bytes := by
  induction bytes with
  | nil =>
      intro isEmpty
      exact absurd rfl isEmpty
  | cons byte bytes ih =>
      intro _
      rw [formatLoop]
      by_cases isLast : bytes = []
      · subst isLast
        refine ⟨digits byte, ?_, .last (isGroup byte)⟩
        rw [if_pos rfl, List.append_nil]
        rfl
      · rcases ih isLast with ⟨characters, isText, separated⟩
        refine ⟨digits byte ++ separator :: characters, ?_,
          .more (isGroup byte) isSeparator separated⟩
        rw [if_neg isLast, isText, List.append_assoc, List.append_assoc]
        rfl

theorem length_formatLoop {width : Nat} (narrow : ∀ byte, (digits byte).length ≤ width)
    (bytes : List UInt8) :
    bytes ≠ [] → (formatLoop digits separator bytes).length ≤ bytes.length * (width + 1) := by
  induction bytes with
  | nil =>
      intro isEmpty
      exact absurd rfl isEmpty
  | cons byte bytes ih =>
      intro _
      have group := narrow byte
      rw [formatLoop, List.length_append, List.length_append, List.length_cons, Nat.succ_mul]
      by_cases isLast : bytes = []
      · subst isLast
        rw [if_pos rfl, formatLoop, List.length_nil, List.length_singleton]
        omega
      · have rest := ih isLast
        rw [if_neg isLast, List.length_singleton]
        omega

theorem Separated.terminated (noZero : ∀ {group byte}, Group group byte → 0 ∉ group)
    (noTerminator : ¬ Separator 0) {characters bytes : List UInt8}
    (separated : Separated Group Separator characters bytes) : 0 ∉ characters := by
  induction separated with
  | last isGroup => exact noZero isGroup
  | more isGroup isSeparator _ ih =>
      intro member
      rcases List.mem_append.mp member with inGroup | behind
      · exact noZero isGroup inGroup
      · rcases List.mem_cons.mp behind with isZero | later
        · rw [← isZero] at isSeparator
          exact noTerminator isSeparator
        · exact ih later

theorem formatLoop_exactly {group : List UInt8 → Checked Unit (UInt8 × List UInt8)}
    {isSeparator : UInt8 → Bool} {width size : Nat}
    (reads : ReadsGroups group isSeparator Group Separator)
    (noZero : ∀ {group byte}, Group group byte → 0 ∉ group)
    (isGroup : ∀ byte, Group (digits byte) byte) (separates : Separator separator)
    (narrow : ∀ byte, (digits byte).length ≤ width) :
    FormatsExactly (fun addr : Address (size + 1) => formatLoop digits separator addr.1)
      ((size + 1) * (width + 1)) (addressParse group isSeparator) := by
  intro addr
  have nonempty : addr.1 ≠ [] := List.ne_nil_of_length_eq_add_one addr.2
  have short := @length_formatLoop digits separator width narrow addr.1 nonempty
  rw [addr.2] at short
  rcases formatLoop_separated isGroup separates addr.1 nonempty with
    ⟨characters, isText, separated⟩
  refine ⟨short, ⟨characters, separated.terminated noZero reads.noTerminator⟩, isText, ?_⟩
  exact addressParse_complete reads separated

end Formatting

theorem toNat_digit {digit : UInt8} (small : digit.toNat < 10) :
    (48 + digit).toNat = 48 + digit.toNat := by
  rw [UInt8.toNat_add]
  exact Nat.mod_eq_of_lt (show 48 + digit.toNat < 256 by omega)

theorem decimalGroup_ipv4Digits (value : UInt8) : DecimalGroup (ipv4Digits value) value := by
  have small := value.toNat_lt
  have hundreds : (48 + value / 100).toNat = 48 + value.toNat / 100 := by
    rw [toNat_digit] <;> rw [UInt8.toNat_div]
    · rfl
    · show value.toNat / 100 < 10
      omega
  have tens : (48 + value / 10 % 10).toNat = 48 + value.toNat / 10 % 10 := by
    rw [toNat_digit] <;> rw [UInt8.toNat_mod, UInt8.toNat_div]
    · rfl
    · show value.toNat / 10 % 10 < 10
      omega
  have ones : (48 + value % 10).toNat = 48 + value.toNat % 10 := by
    rw [toNat_digit] <;> rw [UInt8.toNat_mod]
    · rfl
    · show value.toNat % 10 < 10
      omega
  have least (bound : UInt8) : value ≥ bound ↔ bound.toNat ≤ value.toNat :=
    UInt8.le_iff_toNat_le
  have isHundred : (100 : UInt8).toNat = 100 := rfl
  have isTen : (10 : UInt8).toNat = 10 := rfl
  unfold ipv4Digits
  by_cases three : value ≥ 100
  · have two : value ≥ 10 := by
      rw [least] at three ⊢
      omega
    rw [if_pos three, if_pos two]
    refine ⟨by simp, by simp, ?_, ?_⟩
    · simp only [List.cons_append, List.nil_append, List.forall_mem_cons, hundreds, tens,
        ones, List.not_mem_nil, false_implies, implies_true, and_true]
      omega
    · simp only [decimalValue, List.cons_append, List.nil_append, List.foldl_cons,
        List.foldl_nil, hundreds, tens, ones]
      omega
  · rw [if_neg three]
    rw [least] at three
    by_cases two : value ≥ 10
    · rw [if_pos two]
      refine ⟨by simp, by simp, ?_, ?_⟩
      · simp only [List.cons_append, List.nil_append, List.forall_mem_cons, tens,
          ones, List.not_mem_nil, false_implies, implies_true, and_true]
        omega
      · simp only [decimalValue, List.cons_append, List.nil_append, List.foldl_cons,
          List.foldl_nil, tens, ones]
        omega
    · rw [if_neg two]
      rw [least] at two
      refine ⟨by simp, by simp, ?_, ?_⟩
      · simp only [List.nil_append, List.forall_mem_cons, ones, List.not_mem_nil,
          false_implies, implies_true, and_true]
        omega
      · simp only [decimalValue, List.nil_append, List.foldl_cons, List.foldl_nil, ones]
        omega

theorem hexDigit_hexDigits {value : Nat} (small : value < 16) :
    HexDigit (hexDigits.getD value 0) value := by
  left
  rw [List.getD_eq_getElem?_getD, List.getElem?_eq_getElem small, Option.getD_some]

theorem hexGroup_macDigits (byte : UInt8) : HexGroup (macDigits byte) byte := by
  have small := byte.toNat_lt
  have isHigh : (byte >>> 4).toNat = byte.toNat / 16 := by
    rw [UInt8.toNat_shiftRight]
    exact Nat.shiftRight_eq_div_pow _ 4
  have isLow : (byte &&& 0x0F).toNat = byte.toNat % 16 := by
    rw [UInt8.toNat_and]
    exact Nat.and_two_pow_sub_one_eq_mod _ 4
  refine ⟨_, _, byte.toNat / 16, byte.toNat % 16, rfl, ?_, ?_, ?_⟩
  · rw [isHigh]
    exact hexDigit_hexDigits (by omega)
  · rw [isLow]
    exact hexDigit_hexDigits (by omega)
  · omega

theorem DecimalGroup.terminated {group : List UInt8} {byte : UInt8}
    (isGroup : DecimalGroup group byte) : 0 ∉ group := by
  intro member
  exact absurd (isGroup.digits 0 member).1 (by decide)

theorem HexGroup.terminated {group : List UInt8} {byte : UInt8}
    (isGroup : HexGroup group byte) : 0 ∉ group := by
  rcases isGroup with ⟨high, low, _, _, rfl, highDigit, lowDigit, _⟩
  simp [highDigit.ne_zero.symm, lowDigit.ne_zero.symm]

theorem length_ipv4Digits (value : UInt8) : (ipv4Digits value).length ≤ 3 :=
  (decimalGroup_ipv4Digits value).short

/-- The parsers accept exactly the texts of addresses, and what the formatters store is
the text of the address. -/
theorem address_text_exact :
    (ParsesExactly ipv4Parse IsIpv4Text ∧ ParsesExactly macParse IsMacText) ∧
      FormatsExactly ipv4Format ipv4StringSize ipv4Parse ∧
      FormatsExactly macFormat macStringSize macParse := by
  refine ⟨⟨addressParse_exactly ipv4Group_reads 3, addressParse_exactly macGroup_reads 5⟩,
    ?_, ?_⟩
  · exact formatLoop_exactly ipv4Group_reads DecimalGroup.terminated
      decimalGroup_ipv4Digits rfl length_ipv4Digits
  · exact formatLoop_exactly macGroup_reads HexGroup.terminated hexGroup_macDigits
      (Or.inl rfl) (fun _ => Nat.le_refl 2)

end Katela.Net
