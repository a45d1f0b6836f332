import Katela.Net.Dns
import Katela.Net.Encapsulation

/-! # Responses that are accepted

The parser accepts a message exactly if it answers the question. -/

namespace Katela.Net

/-! ## Encoding a name -/

theorem nameCharValid_dot : nameCharValid dot = false := by decide

theorem scanLabel_append {label rest : List UInt8}
    (valid : ∀ character ∈ label, nameCharValid character = true)
    (ends : rest = [] ∨ ∃ more, rest = dot :: more) :
    scanLabel (label ++ rest) = some (label, rest) := by
  induction label with
  | nil =>
      rcases ends with rfl | ⟨more, rfl⟩
      · rfl
      · rw [List.nil_append, scanLabel, if_pos rfl]
  | cons character label induction =>
      have isValid := valid character (by simp)
      have notDot : character ≠ dot := by
        rintro rfl
        rw [nameCharValid_dot] at isValid
        cases isValid
      rw [List.cons_append, scanLabel, if_neg notDot, if_pos isValid,
        induction fun other member => valid other (by simp [member])]
      rfl

theorem scanLabel_eq_some {characters label rest : List UInt8}
    (isSome : scanLabel characters = some (label, rest)) :
    characters = label ++ rest ∧
      (∀ character ∈ label, nameCharValid character = true) ∧
      (rest = [] ∨ ∃ more, rest = dot :: more) := by
  induction characters generalizing label with
  | nil =>
      cases isSome
      exact ⟨rfl, fun _ impossible => (by cases impossible), Or.inl rfl⟩
  | cons character characters induction =>
      rw [scanLabel] at isSome
      split at isSome
      · next isDot =>
          cases isSome
          exact ⟨rfl, fun _ impossible => (by cases impossible),
            Or.inr ⟨characters, by rw [isDot]⟩⟩
      · split at isSome
        · next isValid =>
            rcases Option.map_eq_some_iff.mp isSome with ⟨⟨scanned, after⟩, isScan, equal⟩
            cases equal
            rcases induction isScan with ⟨isRest, valid, ends⟩
            refine ⟨by rw [isRest]; rfl, fun other member => ?_, ends⟩
            rcases List.mem_cons.mp member with rfl | member
            · exact isValid
            · exact valid other member
        · cases isSome

/-- A label is followed by the end, by a last dot or by the next label. -/
theorem nameEncodeLoop_done {limit : Nat} (rounds : Nat) {out rest wire : List UInt8}
    (isDone : nameEncodeLoop limit rounds out rest = .done wire) :
    ∃ labels, LabelsValid labels ∧
      (rest = spelling labels ∨ rest = spelling labels ++ [dot]) ∧
      wire = out ++ wireForm labels ∧ wire.length ≤ limit := by
  induction rounds generalizing out rest with
  | zero => cases isDone
  | succ rounds induction =>
      rw [nameEncodeLoop] at isDone
      split at isDone
      · cases isDone
      · next label after isScan =>
          rcases scanLabel_eq_some isScan with ⟨rfl, valid, ends⟩
          split at isDone
          · cases isDone
          · next short =>
              split at isDone
              · cases isDone
              · next room =>
                  have single : LabelsValid [label] := by
                    refine ⟨List.cons_ne_nil _ _, fun other member => ?_⟩
                    rw [List.mem_singleton.mp member]
                    exact ⟨by omega, by omega, valid⟩
                  have isWire : out ++ UInt8.ofNat label.length :: label ++ [0] =
                      out ++ wireForm [label] := by
                    simp [wireForm]
                  have isLength : (out ++ wireForm [label]).length =
                      out.length + 1 + label.length + 1 := by
                    simp [wireForm]
                    omega
                  dsimp only at isDone
                  split at isDone
                  · cases isDone
                    exact ⟨[label], single, Or.inl (List.append_nil _), isWire, by
                      rw [isWire]
                      omega⟩
                  · next last =>
                      rcases ends with impossible | ⟨more, isDot⟩
                      · cases impossible
                      · cases isDone
                        cases isDot
                        exact ⟨[label], single, Or.inr rfl, isWire, by
                          rw [isWire]
                          omega⟩
                  · next mark next more =>
                      rcases ends with impossible | ⟨_, isDot⟩
                      · cases impossible
                      · cases isDot
                        rcases induction isDone with
                          ⟨labels, ⟨nonempty, all⟩, isSpelling, rfl, fits⟩
                        refine ⟨label :: labels, ⟨List.cons_ne_nil _ _, ?_⟩, ?_, ?_, fits⟩
                        · intro other member
                          rcases List.mem_cons.mp member with rfl | member
                          · exact single.2 _ (by simp)
                          · exact all other member
                        · rcases labels with _ | ⟨second, labels⟩
                          · exact absurd rfl nonempty
                          · rcases isSpelling with isSpelling | isSpelling
                            · exact Or.inl (by rw [isSpelling]; rfl)
                            · exact Or.inr (by
                                rw [isSpelling]
                                simp [spelling])
                        · simp [wireForm]

/-- One round of the encoder on a label that fits. -/
theorem nameEncodeLoop_label {limit rounds : Nat} {out label rest : List UInt8}
    (valid : ∀ character ∈ label, nameCharValid character = true)
    (positive : 1 ≤ label.length) (short : label.length ≤ labelMax)
    (ends : rest = [] ∨ ∃ more, rest = dot :: more)
    (room : out.length + 1 + label.length + 1 ≤ limit) :
    nameEncodeLoop limit (rounds + 1) out (label ++ rest) =
      match rest with
      | [] => .done (out ++ UInt8.ofNat label.length :: label ++ [0])
      | [_] => .done (out ++ UInt8.ofNat label.length :: label ++ [0])
      | _ :: next :: rest => nameEncodeLoop limit rounds
          (out ++ UInt8.ofNat label.length :: label) (next :: rest) := by
  rw [nameEncodeLoop, scanLabel_append valid ends]
  dsimp only
  rw [if_neg (by omega), if_neg (by omega)]
  rcases rest with _ | ⟨mark, _ | ⟨next, rest⟩⟩
  · rfl
  · rfl
  · rfl

theorem length_wireForm_pos (labels : List (List UInt8)) : 1 ≤ (wireForm labels).length := by
  cases labels with
  | nil => exact Nat.le_refl _
  | cons label labels =>
      rw [wireForm, List.length_cons]
      omega

theorem nameEncodeLoop_spelling {limit : Nat} {labels : List (List UInt8)}
    (valid : LabelsValid labels) (rounds : Nat) {out rest : List UInt8}
    (isRest : rest = spelling labels ∨ rest = spelling labels ++ [dot])
    (room : (out ++ wireForm labels).length ≤ limit) (enough : rest.length < rounds) :
    nameEncodeLoop limit rounds out rest = .done (out ++ wireForm labels) := by
  induction labels generalizing rounds out rest with
  | nil => exact absurd rfl valid.1
  | cons label labels induction =>
      rcases valid.2 label (by simp) with ⟨positive, short, all⟩
      cases rounds with
      | zero => omega
      | succ rounds =>
          have isLength : (out ++ wireForm (label :: labels)).length =
              out.length + 1 + label.length + (wireForm labels).length := by
            simp [wireForm]
            omega
          have more := length_wireForm_pos labels
          have room' : out.length + 1 + label.length + 1 ≤ limit := by omega
          cases labels with
          | nil =>
              have isWire : out ++ UInt8.ofNat label.length :: label ++ [0] =
                  out ++ wireForm [label] := by
                simp [wireForm]
              rcases isRest with isRest | isRest
              · have step := @nameEncodeLoop_label limit rounds out label [] all positive
                  short (Or.inl rfl) room'
                rw [List.append_nil] at step
                rw [isRest]
                exact step.trans (congrArg _ isWire)
              · have step := @nameEncodeLoop_label limit rounds out label [dot] all
                  positive short (Or.inr ⟨[], rfl⟩) room'
                rw [isRest]
                exact step.trans (congrArg _ isWire)
          | cons second labels =>
              have rest' : ∃ after, rest = label ++ dot :: after ∧
                  (after = spelling (second :: labels) ∨
                    after = spelling (second :: labels) ++ [dot]) := by
                rcases isRest with rfl | rfl
                · exact ⟨_, rfl, Or.inl rfl⟩
                · exact ⟨spelling (second :: labels) ++ [dot], by simp [spelling],
                    Or.inr rfl⟩
              rcases rest' with ⟨after, rfl, isAfter⟩
              have valid' : LabelsValid (second :: labels) :=
                ⟨List.cons_ne_nil _ _, fun other member => valid.2 other (by simp [member])⟩
              have isWire : out ++ wireForm (label :: second :: labels) =
                  (out ++ UInt8.ofNat label.length :: label) ++
                    wireForm (second :: labels) := by
                simp [wireForm]
              rw [nameEncodeLoop_label all positive short (Or.inr ⟨after, rfl⟩) room']
              rw [List.length_append, List.length_cons] at enough
              rw [isWire] at room ⊢
              have next := induction valid' rounds isAfter room (by omega)
              cases after with
              | nil =>
                  -- The second label is not empty.
                  have longer := valid.2 second (by simp)
                  have nothing : second = [] := by
                    rcases isAfter with isAfter | isAfter
                    · cases labels with
                      | nil => exact isAfter.symm
                      | cons third labels =>
                          simp [spelling] at isAfter
                    · simp at isAfter
                  rw [nothing] at longer
                  exact absurd longer.1 (by decide)
              | cons first after => exact next

theorem nameEncode_iff {limit : Nat} {name : CString} {wire : List UInt8} :
    nameEncode limit name = .done wire ↔
      WireName (min limit wireNameMax) name.characters wire := by
  have isLimit : (if limit > wireNameMax then wireNameMax else limit) =
      min limit wireNameMax := by
    split <;> omega
  unfold nameEncode
  rw [isLimit]
  constructor
  · exact nameEncodeLoop_done _
  · rintro ⟨labels, valid, isSpelling, rfl, fits⟩
    exact nameEncodeLoop_spelling valid _ isSpelling fits (Nat.lt_succ_self _)

/-! ## Reading a message -/

section Reads

variable {ε : Type} {bytes : List UInt8} {offset : Nat}

theorem be16Write_of_bytes (high low : UInt8) :
    be16Write (UInt16.ofNat (256 * high.toNat + low.toNat)) = [high, low] := by
  have first := high.toNat_lt
  have second := low.toNat_lt
  have isValue : (UInt16.ofNat (256 * high.toNat + low.toNat)).toNat =
      256 * high.toNat + low.toNat := by
    rw [UInt16.toNat_ofNat']
    omega
  rw [be16Write, isValue]
  congr 1
  · apply UInt8.toNat_inj.mp
    rw [UInt8.toNat_ofNat']
    omega
  · congr 1
    apply UInt8.toNat_inj.mp
    rw [UInt8.toNat_ofNat']
    omega

theorem drop_of_be16Read {value : UInt16}
    (isDone : (be16Read bytes offset : Checked ε UInt16) = .done value) :
    bytes.drop offset = be16Write value ++ bytes.drop (offset + 2) := by
  rcases Checked.bind_eq_done isDone with ⟨high, isHigh, rest⟩
  rcases Checked.bind_eq_done rest with ⟨low, isLow, isValue⟩
  cases isValue
  rw [Checked.drop_of_get isHigh, Checked.drop_of_get isLow, be16Write_of_bytes]
  rfl

theorem drop_of_copyAddress {size : Nat} {address : Address size}
    (isDone : (copyAddress bytes offset : Checked ε (Address size)) = .done address) :
    bytes.drop offset = address.val ++ bytes.drop (offset + size) := by
  unfold copyAddress at isDone
  split at isDone
  · cases isDone
    rw [← List.drop_drop, List.take_append_drop]
  · cases isDone

theorem be16_exists (inside : offset + 2 ≤ bytes.length) :
    ∃ value, bytes.drop offset = be16Write value ++ bytes.drop (offset + 2) := by
  have first := List.drop_eq_getElem_cons (by omega : offset < bytes.length)
  have second := List.drop_eq_getElem_cons (by omega : offset + 1 < bytes.length)
  refine ⟨UInt16.ofNat (256 * bytes[offset].toNat + bytes[offset + 1].toNat), ?_⟩
  rw [be16Write_of_bytes, first, second]
  rfl

end Reads

/-! ## Owner names -/

section Owners

variable {bytes : List UInt8}

theorem and_high_bits (length : UInt8) :
    (length &&& 0xC0 = 0xC0 ↔ length ≥ 0xC0) ∧
    (length &&& 0xC0 = 0 ↔ length.toNat ≤ labelMax) := by
  have all : ∀ number : Fin 256,
      (UInt8.ofNat number &&& 0xC0 = 0xC0 ↔ UInt8.ofNat number ≥ 0xC0) ∧
      (UInt8.ofNat number &&& 0xC0 = 0 ↔ (UInt8.ofNat number).toNat ≤ labelMax) := by
    decide +kernel
  have one := all ⟨length.toNat, length.toNat_lt⟩
  rw [UInt8.ofNat_toNat] at one
  exact one

theorem nameSkip_done (rounds : Nat) {offset offset' : Nat}
    (isDone : nameSkip bytes rounds offset = .done offset') :
    OwnerName (bytes.drop offset) (bytes.drop offset') ∧ offset' ≤ bytes.length := by
  induction rounds generalizing offset with
  | zero => cases isDone
  | succ rounds induction =>
      rw [nameSkip] at isDone
      split at isDone
      · cases isDone
      · next inside =>
          rcases Checked.bind_eq_done isDone with ⟨length, isLength, rest⟩
          have isDrop := Checked.drop_of_get isLength
          split at rest
          · next isZero =>
              cases rest
              rw [isDrop, isZero]
              exact ⟨OwnerName.zero, by omega⟩
          · next notZero =>
              split at rest
              · next isPointer =>
                  split at rest
                  · cases rest
                  · next fits =>
                      cases rest
                      have isNext := List.drop_eq_getElem_cons
                        (by omega : offset + 1 < bytes.length)
                      rw [isDrop, isNext]
                      exact ⟨OwnerName.pointer ((and_high_bits length).1.mp isPointer),
                        by omega⟩
              · split at rest
                · cases rest
                · next noBits =>
                    dsimp only at rest
                    split at rest
                    · cases rest
                    · next fits =>
                        rcases induction rest with ⟨owner, bound⟩
                        refine ⟨?_, bound⟩
                        have isLabel : bytes.drop (offset + 1) =
                            (bytes.drop (offset + 1)).take length.toNat ++
                              bytes.drop (offset + (1 + length.toNat)) := by
                          rw [← Nat.add_assoc, ← @List.drop_drop _ length.toNat,
                            List.take_append_drop]
                        have positive : length.toNat ≠ 0 :=
                          fun isZero => notZero (UInt8.toNat_inj.mp isZero)
                        rw [isDrop, isLabel]
                        refine OwnerName.label (by omega)
                          ((and_high_bits length).2.mp (not_not.mp noBits)) ?_ owner
                        rw [List.length_take, List.length_drop]
                        omega

theorem nameSkip_owner {block rest : List UInt8} (owner : OwnerName block rest)
    (rounds : Nat) {offset : Nat} (isBlock : bytes.drop offset = block)
    (enough : bytes.length < rounds + offset) :
    ∃ offset', nameSkip bytes rounds offset = .done offset' ∧
      bytes.drop offset' = rest ∧ offset' ≤ bytes.length := by
  induction owner generalizing rounds offset with
  | @zero rest =>
      have inside := lt_length_of_drop isBlock
      cases rounds with
      | zero => omega
      | succ rounds =>
          refine ⟨offset + 1, ?_, (getElem?_of_drop isBlock).2, by omega⟩
          rw [nameSkip, if_neg (by omega), Checked.get_of_drop isBlock,
            Checked.done_bind, if_pos rfl]
  | @pointer high low rest isPointer =>
      have inside := lt_length_of_drop (getElem?_of_drop isBlock).2
      cases rounds with
      | zero => omega
      | succ rounds =>
          have notZero : high ≠ 0 := by
            rintro rfl
            exact absurd isPointer (by decide)
          refine ⟨offset + 2, ?_, (getElem?_of_drop (getElem?_of_drop isBlock).2).2,
            by omega⟩
          rw [nameSkip, if_neg (by omega), Checked.get_of_drop isBlock,
            Checked.done_bind, if_neg notZero,
            if_pos ((and_high_bits high).1.mpr isPointer), if_neg (by omega)]
  | @label length label more rest positive short isLabel owner induction =>
      have inside := lt_length_of_drop isBlock
      cases rounds with
      | zero => omega
      | succ rounds =>
          have after := (getElem?_of_drop isBlock).2
          have isMore : bytes.drop (offset + (1 + length.toNat)) = more := by
            rw [← Nat.add_assoc, ← isLabel]
            exact drop_of_drop after
          have isSum := congrArg List.length after
          rw [List.length_drop, List.length_append] at isSum
          have notZero : length ≠ 0 := by
            rintro rfl
            exact absurd positive (by decide)
          have noBits : length &&& 0xC0 = 0 := (and_high_bits length).2.mpr short
          have notPointer : ¬ length &&& 0xC0 = 0xC0 := by
            rw [noBits]
            decide
          rcases induction rounds isMore (by omega) with ⟨offset', done, isRest, bound⟩
          refine ⟨offset', ?_, isRest, bound⟩
          rw [nameSkip, if_neg (by omega), Checked.get_of_drop isBlock,
            Checked.done_bind, if_neg notZero, if_neg notPointer,
            if_neg (not_not.mpr noBits)]
          dsimp only
          rw [if_neg (by omega)]
          exact done

end Owners

/-! ## Records -/

section Records

variable {bytes : List UInt8} {address : Ipv4Addr}

theorem drop_eq_take_append (offset count : Nat) :
    bytes.drop offset = (bytes.drop offset).take count ++ bytes.drop (offset + count) := by
  rw [← List.drop_drop, List.take_append_drop]

theorem answersLoop_done (answers : Nat) {offset : Nat}
    (isDone : answersLoop bytes answers offset = .done address) :
    FirstAddress answers (bytes.drop offset) address := by
  induction answers generalizing offset with
  | zero => cases isDone
  | succ answers induction =>
      rw [answersLoop] at isDone
      rcases Checked.bind_eq_done isDone with ⟨start, skipped, isFields⟩
      rcases nameSkip_done _ skipped with ⟨owner, _⟩
      split at isFields
      · cases isFields
      · next inside =>
          rcases Checked.bind_eq_done isFields with ⟨type, isType, isFields⟩
          rcases Checked.bind_eq_done isFields with ⟨classCode, isClass, isFields⟩
          rcases Checked.bind_eq_done isFields with ⟨length, isLength, isFields⟩
          dsimp only at isFields
          split at isFields
          · cases isFields
          · next fits =>
              have isTime : ((bytes.drop (start + 4)).take 4).length = 4 := by
                rw [List.length_take, List.length_drop]
                omega
              have isData : ((bytes.drop (start + 10)).take length.toNat).length =
                  length.toNat := by
                rw [List.length_take, List.length_drop]
                omega
              have at0 : bytes.drop start = be16Write type ++ bytes.drop (start + 2) :=
                drop_of_be16Read isType
              have at2 : bytes.drop (start + 2) =
                  be16Write classCode ++ bytes.drop (start + 4) :=
                drop_of_be16Read isClass
              have at4 : bytes.drop (start + 4) =
                  (bytes.drop (start + 4)).take 4 ++ bytes.drop (start + 8) :=
                drop_eq_take_append (start + 4) 4
              have at8 : bytes.drop (start + 8) =
                  be16Write length ++ bytes.drop (start + 10) :=
                drop_of_be16Read isLength
              have isRecord : RecordAt (bytes.drop offset)
                  ⟨type, classCode, ⟨(bytes.drop (start + 4)).take 4, isTime⟩,
                    (bytes.drop (start + 10)).take length.toNat⟩
                  (bytes.drop (start + 10 + length.toNat)) := by
                refine ⟨bytes.drop start, length, owner, isData.symm, ?_⟩
                dsimp only
                rw [← drop_eq_take_append (start + 10), ← at8, ← at4, ← at2, ← at0]
              split at isFields
              · next isAddress =>
                  have found := drop_of_copyAddress isFields
                  have four : length.toNat = 4 := isAddress.2.2
                  refine FirstAddress.here isRecord
                    ⟨isAddress.1, isAddress.2.1, isData.trans four⟩ ?_
                  simp only
                  rw [four, found, List.take_left' address.property]
              · next notAddress =>
                  refine FirstAddress.later isRecord ?_ (induction isFields)
                  rintro ⟨isA, isIn, isFour⟩
                  exact notAddress ⟨isA, isIn, isData.symm.trans isFour⟩

/-- One round of the loop on a record. -/
theorem answersLoop_record {answers offset : Nat} {record : Record} {rest : List UInt8}
    (isRecord : RecordAt (bytes.drop offset) record rest) :
    ∃ start : Nat, bytes.drop start = record.data ++ rest ∧ start ≤ bytes.length ∧
      bytes.drop (start + record.data.length) = rest ∧
      answersLoop bytes (answers + 1) offset =
        if record.type = 1 ∧ record.classCode = 1 ∧ record.data.length = 4 then
          copyAddress bytes start
        else answersLoop bytes answers (start + record.data.length) := by
  rcases isRecord with ⟨fields, length, owner, isLength, isFields⟩
  rcases nameSkip_owner owner (bytes.length + 1) rfl (by omega) with
    ⟨start, skipped, isStart, bound⟩
  rw [isFields] at isStart
  have at2 : bytes.drop (start + 2) = be16Write record.classCode ++ _ :=
    drop_next isStart rfl
  have at4 : bytes.drop (start + 4) = record.timeToLive.val ++ _ :=
    @drop_next bytes _ (start + 2) _ 2 at2 rfl
  have at8 : bytes.drop (start + 8) = be16Write length ++ _ :=
    @drop_next bytes _ (start + 4) _ 4 at4 record.timeToLive.property
  have at10 : bytes.drop (start + 10) = record.data ++ rest :=
    @drop_next bytes _ (start + 8) _ 2 at8 rfl
  have size8 := congrArg List.length at8
  rw [List.length_drop, List.length_append, length_be16Write] at size8
  have size10 := congrArg List.length at10
  rw [List.length_drop, List.length_append] at size10
  refine ⟨start + 10, at10, by omega, drop_of_drop at10, ?_⟩
  rw [answersLoop, skipped, Checked.done_bind, if_neg (by omega),
    be16Read_of_drop isStart, Checked.done_bind, be16Read_of_drop at2,
    Checked.done_bind, be16Read_of_drop at8, Checked.done_bind]
  dsimp only
  rw [if_neg (by omega), isLength]

theorem answersLoop_firstAddress {answers offset : Nat} {block : List UInt8}
    (first : FirstAddress answers block address) (isBlock : bytes.drop offset = block) :
    answersLoop bytes answers offset = .done address := by
  induction first generalizing offset with
  | @here count block rest record address isRecord isAddress isData =>
      rw [← isBlock] at isRecord
      rcases @answersLoop_record bytes count offset record rest isRecord with
        ⟨start, isStart, bound, _, step⟩
      rw [← isData] at isStart
      exact (step.trans (if_pos isAddress)).trans (copyAddress_of_drop isStart bound)
  | @later count block rest record address isRecord notAddress first induction =>
      rw [← isBlock] at isRecord
      rcases @answersLoop_record bytes count offset record rest isRecord with
        ⟨start, _, _, isRest, step⟩
      exact (step.trans (if_neg notAddress)).trans (induction isRest)

end Records

/-! ## The question -/

section Questions

variable {bytes : List UInt8}

theorem compareName_done {expected : List UInt8} {offset : Nat}
    (isDone : compareName bytes offset expected = .done ()) :
    ∃ question, bytes.drop offset = question ++ bytes.drop (offset + expected.length) ∧
      question.map lower = expected.map lower := by
  induction expected generalizing offset with
  | nil => exact ⟨[], rfl, rfl⟩
  | cons character expected induction =>
      rw [compareName] at isDone
      rcases Checked.bind_eq_done isDone with ⟨byte, isByte, rest⟩
      split at rest
      · cases rest
      · next same =>
          rcases induction rest with ⟨question, isQuestion, sameRest⟩
          refine ⟨byte :: question, ?_, ?_⟩
          · have isNext : offset + (character :: expected).length =
                offset + 1 + expected.length := by
              rw [List.length_cons]
              omega
            rw [Checked.drop_of_get isByte, isQuestion, isNext]
            rfl
          · rw [List.map_cons, List.map_cons, sameRest, not_not.mp same]

theorem compareName_question {question expected rest : List UInt8} {offset : Nat}
    (isQuestion : bytes.drop offset = question ++ rest)
    (same : question.map lower = expected.map lower) :
    compareName bytes offset expected = .done () := by
  induction expected generalizing question offset with
  | nil => rfl
  | cons character expected induction =>
      cases question with
      | nil => cases same
      | cons byte question =>
          rw [List.map_cons, List.map_cons] at same
          injection same with first others
          rw [compareName, Checked.get_of_drop isQuestion, Checked.done_bind,
            if_neg (not_not.mpr first)]
          exact induction (getElem?_of_drop isQuestion).2 others

end Questions

/-! ## Whole messages -/

section Messages

variable {data : List UInt8} {id : UInt16} {name : CString} {address : Ipv4Addr}

theorem answersQuestion_of_done (isDone : dnsResponseParse data id name = .done address) :
    AnswersQuestion data id name address := by
  have isHeader : dnsHeaderSize = 12 := rfl
  unfold dnsResponseParse at isDone
  split at isDone
  · cases isDone
  rcases Checked.bind_eq_done isDone with ⟨found, isId, isDone⟩
  split at isDone
  · cases isDone
  next sameId =>
  rcases Checked.bind_eq_done isDone with ⟨flags, isFlags, isDone⟩
  split at isDone
  · cases isDone
  next isResponse =>
  rcases Checked.bind_eq_done isDone with ⟨questions, isQuestions, isDone⟩
  split at isDone
  · cases isDone
  next oneQuestion =>
  rcases Checked.recover_eq_done isDone with ⟨wire, isWire, isDone⟩ | ⟨_, _, impossible⟩
  · have encoded := nameEncode_iff.mp isWire
    split at isDone
    · cases isDone
    rcases Checked.bind_eq_done isDone with ⟨_, compared, isDone⟩
    rcases compareName_done compared with ⟨question, isQuestion, same⟩
    rcases Checked.bind_eq_done isDone with ⟨type, isType, isDone⟩
    rcases Checked.bind_eq_done isDone with ⟨classCode, isClass, isDone⟩
    split at isDone
    · cases isDone
    next isAddress =>
    split at isDone
    · cases isDone
    split at isDone
    · cases isDone
    next noError =>
    rcases Checked.bind_eq_done isDone with ⟨answers, isAnswers, isDone⟩
    have first := answersLoop_done _ isDone
    have at0 : data.drop 0 = be16Write found ++ data.drop 2 := drop_of_be16Read isId
    have at2 : data.drop 2 = be16Write flags ++ data.drop 4 := drop_of_be16Read isFlags
    have at4 : data.drop 4 = be16Write questions ++ data.drop 6 :=
      drop_of_be16Read isQuestions
    have at6 : data.drop 6 = be16Write answers ++ data.drop 8 :=
      drop_of_be16Read isAnswers
    rcases be16_exists (by omega : 8 + 2 ≤ data.length) with ⟨authorities, at8⟩
    rcases be16_exists (by omega : 10 + 2 ≤ data.length) with ⟨additional, at10⟩
    have at12 : data.drop 12 = question ++ data.drop (12 + wire.length) := isQuestion
    have atType : data.drop (12 + wire.length) =
        be16Write type ++ data.drop (12 + wire.length + 2) := drop_of_be16Read isType
    have atClass : data.drop (12 + wire.length + 2) =
        be16Write classCode ++ data.drop (12 + wire.length + 4) :=
      drop_of_be16Read isClass
    rw [not_or, not_not, not_not] at isAddress
    rw [not_or, not_not] at isResponse
    rw [not_not] at sameId oneQuestion noError
    refine ⟨flags, answers, authorities, additional, question, wire,
      data.drop (12 + wire.length + 4), ?_, isResponse.1, isResponse.2, noError, encoded,
      same, first⟩
    rw [sameId] at at0
    rw [oneQuestion] at at4
    rw [isAddress.1] at atType
    rw [isAddress.2] at atClass
    rw [← atClass, ← atType, ← at12, ← at10, ← at8, ← at6, ← at4, ← at2]
    exact at0
  · cases impossible

/-- A message with the expected question is read up to its answers. -/
theorem dnsResponseParse_question {flags answers authorities additional : UInt16}
    {question wire records : List UInt8}
    (isData : data = be16Write id ++ (be16Write flags ++ (be16Write 1 ++ (be16Write answers ++
      (be16Write authorities ++ (be16Write additional ++ (question ++
        (be16Write 1 ++ (be16Write 1 ++ records)))))))))
    (isResponse : flags &&& 0x8000 ≠ 0) (noOpcode : flags &&& 0x7800 = 0)
    (isWire : nameEncode 256 name = .done wire)
    (same : question.map lower = wire.map lower) :
    data.drop (12 + wire.length + 4) = records ∧
      dnsResponseParse data id name =
        if flags &&& 0x000F = 3 then .failed .nxdomain
        else if flags &&& 0x000F ≠ 0 then .failed .server
        else answersLoop data answers.toNat (12 + wire.length + 4) := by
  have isHeader : dnsHeaderSize = 12 := rfl
  have at0 : data.drop 0 = be16Write id ++ _ := isData
  have at2 : data.drop 2 = be16Write flags ++ _ := drop_next at0 rfl
  have at4 : data.drop 4 = be16Write 1 ++ _ := drop_next at2 rfl
  have at6 : data.drop 6 = be16Write answers ++ _ := drop_next at4 rfl
  have at8 : data.drop 8 = be16Write authorities ++ _ := drop_next at6 rfl
  have at10 : data.drop 10 = be16Write additional ++ _ := drop_next at8 rfl
  have at12 : data.drop 12 = question ++ (be16Write 1 ++ (be16Write 1 ++ records)) :=
    drop_next at10 rfl
  have isLength : question.length = wire.length := by
    have lengths := congrArg List.length same
    rw [List.length_map, List.length_map] at lengths
    exact lengths
  have atType : data.drop (12 + wire.length) = be16Write 1 ++ (be16Write 1 ++ records) :=
    drop_next at12 isLength
  have atClass : data.drop (12 + wire.length + 2) = be16Write 1 ++ records :=
    drop_next atType rfl
  have atRecords : data.drop (12 + wire.length + 4) = records :=
    @drop_next data _ (12 + wire.length + 2) _ 2 atClass rfl
  have size := congrArg List.length isData
  simp only [List.length_append, length_be16Write] at size
  refine ⟨atRecords, ?_⟩
  rw [dnsResponseParse, if_neg (by omega), be16Read_of_drop at0, Checked.done_bind,
    if_neg (not_not.mpr rfl), be16Read_of_drop at2, Checked.done_bind,
    if_neg (not_or.mpr ⟨isResponse, not_not.mpr noOpcode⟩), be16Read_of_drop at4,
    Checked.done_bind, if_neg (not_not.mpr rfl), isWire]
  change (if dnsHeaderSize + wire.length + 4 > data.length then _ else _) = _
  rw [if_neg (by omega), isHeader, compareName_question at12 same, Checked.done_bind]
  dsimp only
  rw [be16Read_of_drop atType, Checked.done_bind, be16Read_of_drop atClass,
    Checked.done_bind, if_neg (not_or.mpr ⟨not_not.mpr rfl, not_not.mpr rfl⟩),
    be16Read_of_drop at6, Checked.done_bind]

theorem done_of_answersQuestion (answered : AnswersQuestion data id name address) :
    dnsResponseParse data id name = .done address := by
  rcases answered with ⟨flags, answers, authorities, additional, question, wire, records,
    isData, isResponse, noOpcode, noError, encoded, same, first⟩
  have noError' : ¬ flags &&& 0x000F = 3 := by
    rw [noError]
    decide
  rcases dnsResponseParse_question isData isResponse noOpcode (nameEncode_iff.mpr encoded)
    same with ⟨atRecords, parsed⟩
  rw [parsed, if_neg noError', if_neg (not_not.mpr noError)]
  exact answersLoop_firstAddress first atRecords

end Messages

/-- A message is accepted with an address exactly if it is a response to the
question and the address is the first one among its answers. -/
theorem dnsResponseParse_iff (data : List UInt8) (id : UInt16) (name : CString)
    (address : Ipv4Addr) :
    dnsResponseParse data id name = .done address ↔
      AnswersQuestion data id name address :=
  ⟨answersQuestion_of_done, done_of_answersQuestion⟩

end Katela.Net
