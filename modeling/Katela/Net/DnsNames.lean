import Mathlib.Data.List.GetD
import Katela.Net.DnsAnswers
import Katela.Net.Receive

/-! # Names in queries

What `name_encode` writes to its buffer, and that labels, spellings and encodings of names
determine each other. -/

namespace Katela.Net

/-- The bytes are stored from an offset on. -/
def storeAt (out : Nat → UInt8) (offset : Nat) (bytes : List UInt8) : Nat → UInt8 :=
  fun index => if offset ≤ index then bytes.getD (index - offset) (out index) else out index

/-- The loop of `name_encode` with its buffer: what the buffer holds in the end, also after
an error, and the number of bytes that is returned. -/
def nameEncodeInto (limit : Nat) : (rounds : Nat) → (out : Nat → UInt8) →
    (length : Nat) → (rest : List UInt8) → (Nat → UInt8) × Checked Unit Nat
  | 0, out, _, _ => (out, .endless)
  | rounds + 1, out, length, rest =>
      match scanLabel rest with
      | none => (out, .failed ())
      | some (label, rest) =>
          if label.length = 0 ∨ label.length > labelMax then (out, .failed ())
          else if length + 1 + label.length + 1 > limit then (out, .failed ())
          else
            let out := storeAt out length [UInt8.ofNat label.length]
            let out := storeAt out (length + 1) label
            let length := length + (1 + label.length)
            match rest with
            | [] => (storeAt out length [0], .done (length + 1))
            | [_] => (storeAt out length [0], .done (length + 1))
            | _ :: next :: rest => nameEncodeInto limit rounds out length (next :: rest)

def encodeInto (limit : Nat) (name : CString) (out : Nat → UInt8) :
    (Nat → UInt8) × Checked Unit Nat :=
  nameEncodeInto (if limit > wireNameMax then wireNameMax else limit)
    (name.characters.length + 1) out 0 name.characters

section Buffers

variable {out : Nat → UInt8} {front back : List UInt8}

theorem storeAt_append (out : Nat → UInt8) (offset : Nat) (front back : List UInt8) :
    storeAt (storeAt out offset front) (offset + front.length) back =
      storeAt out offset (front ++ back) := by
  funext index
  unfold storeAt
  by_cases before : offset ≤ index
  · by_cases inside : index < offset + front.length
    · rw [if_neg (by omega), if_pos before, if_pos before, List.getD_append _ _ _ _ (by omega)]
    · rw [if_pos (by omega), if_pos before, if_pos before,
        List.getD_append_right _ _ _ _ (by omega),
        List.getD_eq_default _ _ (by omega : front.length ≤ index - offset), Nat.sub_sub]
  · rw [if_neg (by omega), if_neg before, if_neg before]

theorem storeAt_past {bytes : List UInt8} {index : Nat} (past : bytes.length ≤ index) :
    storeAt out 0 bytes index = out index := by
  unfold storeAt
  rw [if_pos (Nat.zero_le _), Nat.sub_zero, List.getD_eq_default _ _ past]

/-- A buffer and a result are those for the bytes that were put together. -/
structure Stores (limit : Nat) (out : Nat → UInt8)
    (stored : (Nat → UInt8) × Checked Unit Nat) (encoded : Checked Unit (List UInt8)) :
    Prop where
  result : stored.2 = encoded.recover .failed fun wire => .done wire.length
  bytes : ∀ wire, encoded = .done wire → stored.1 = storeAt out 0 wire
  past : ∀ index, limit ≤ index → stored.1 index = out index

theorem Stores.failed {limit : Nat} {written : List UInt8} (inside : written.length ≤ limit) :
    Stores limit out (storeAt out 0 written, .failed ()) (.failed ()) where
  result := rfl
  bytes wire impossible := by cases impossible
  past index past := storeAt_past (Nat.le_trans inside past)

theorem Stores.done {limit : Nat} {written : List UInt8} (inside : written.length < limit) :
    Stores limit out (storeAt (storeAt out 0 written) written.length [0],
      .done (written.length + 1)) (.done (written ++ [0])) := by
  have last := storeAt_append out 0 written [0]
  rw [Nat.zero_add] at last
  rw [last]
  constructor
  case result => simp only [Checked.recover, List.length_append, List.length_singleton]
  case bytes =>
    intro wire isWire
    cases isWire
    rfl
  case past =>
    intro index past
    apply storeAt_past
    rw [List.length_append, List.length_singleton]
    omega

/-- What is stored is what the loop without a buffer puts together. -/
theorem nameEncodeInto_stores {limit : Nat} (rounds : Nat) {written rest : List UInt8}
    (inside : written.length ≤ limit) (enough : rest.length < rounds) :
    Stores limit out
      (nameEncodeInto limit rounds (storeAt out 0 written) written.length rest)
      (nameEncodeLoop limit rounds written rest) := by
  induction rounds generalizing written rest with
  | zero => exact absurd enough (Nat.not_lt_zero _)
  | succ rounds induction =>
      unfold nameEncodeInto nameEncodeLoop
      cases scan : scanLabel rest with
      | none => exact .failed inside
      | some scanned =>
          rcases scanned with ⟨label, after⟩
          have isRest := (scanLabel_eq_some scan).1
          dsimp only
          by_cases short : label.length = 0 ∨ label.length > labelMax
          · rw [if_pos short, if_pos short]
            exact .failed inside
          rw [if_neg short, if_neg short]
          by_cases large : written.length + 1 + label.length + 1 > limit
          · rw [if_pos large, if_pos large]
            exact .failed inside
          rw [if_neg large, if_neg large]
          have stored : storeAt (storeAt (storeAt out 0 written) written.length
              [UInt8.ofNat label.length]) (written.length + 1) label =
                storeAt out 0 (written ++ UInt8.ofNat label.length :: label) := by
            have one := storeAt_append out 0 written [UInt8.ofNat label.length]
            have two := storeAt_append out 0 (written ++ [UInt8.ofNat label.length]) label
            rw [Nat.zero_add] at one
            rw [Nat.zero_add, List.length_append, List.length_singleton] at two
            rw [one, two, List.append_assoc, List.singleton_append]
          have isLength : written.length + (1 + label.length) =
              (written ++ UInt8.ofNat label.length :: label).length := by
            rw [List.length_append, List.length_cons]
            omega
          rw [stored, isLength]
          rcases after with _ | ⟨mark, _ | ⟨next, more⟩⟩
          · exact .done (by omega)
          · exact .done (by omega)
          · rw [isRest, List.length_append, List.length_cons] at enough
            exact induction (by omega) (by omega)

theorem encodeInto_stores (limit : Nat) (name : CString) (out : Nat → UInt8) :
    Stores (min limit wireNameMax) out (encodeInto limit name out) (nameEncode limit name) := by
  have isLimit : (if limit > wireNameMax then wireNameMax else limit) =
      min limit wireNameMax := by
    split <;> omega
  have nothing : storeAt out 0 [] = out := funext fun index => storeAt_past (Nat.zero_le _)
  unfold encodeInto nameEncode
  rw [isLimit]
  have stores := @nameEncodeInto_stores out (min limit wireNameMax)
    (name.characters.length + 1) [] name.characters (Nat.zero_le _) (Nat.lt_succ_self _)
  rw [nothing] at stores
  exact stores

end Buffers

/-! ## Labels -/

/-- The labels of an encoded name. -/
def decodeLabels (bytes : List UInt8) : Option (List (List UInt8)) :=
  match bytes with
  | [] => none
  | length :: rest =>
      if length = 0 then some []
      else if rest.length < length.toNat then none
      else (decodeLabels (rest.drop length.toNat)).map (rest.take length.toNat :: ·)
termination_by bytes.length
decreasing_by
  rw [List.length_drop, List.length_cons]
  omega

/-- A name without the dot at its end. -/
def withoutDot (name : List UInt8) : List UInt8 :=
  if name.getLast? = some dot then name.dropLast else name

/-- The length of each label and its characters, and a zero. -/
def wireLength (labels : List (List UInt8)) : Nat :=
  (labels.map fun label => 1 + label.length).sum + 1

/-- The name is made of these labels, and its encoding is not too long. -/
structure Accepts (limit : Nat) (name : CString) (labels : List (List UInt8)) : Prop where
  valid : LabelsValid labels
  spelled : name.characters = spelling labels ∨ name.characters = spelling labels ++ [dot]
  fits : wireLength labels ≤ min limit wireNameMax

section Labels

variable {labels : List (List UInt8)} {limit : Nat} {name : CString}

theorem length_wireForm (labels : List (List UInt8)) :
    (wireForm labels).length = wireLength labels := by
  unfold wireLength
  induction labels with
  | nil => rfl
  | cons label labels induction =>
      rw [wireForm, List.length_cons, List.length_append, induction, List.map_cons,
        List.sum_cons]
      omega

theorem decodeLabels_wireForm
    (valid : ∀ label ∈ labels, 1 ≤ label.length ∧ label.length ≤ labelMax) :
    decodeLabels (wireForm labels) = some labels := by
  have isMax : labelMax = 63 := rfl
  induction labels with
  | nil =>
      rw [wireForm, decodeLabels, if_pos rfl]
  | cons label labels induction =>
      have bounds := valid label List.mem_cons_self
      have isLength : (UInt8.ofNat label.length).toNat = label.length :=
        UInt8.toNat_ofNat_of_lt' (by rw [show UInt8.size = 256 from rfl]; omega)
      have nonzero : UInt8.ofNat label.length ≠ 0 := by
        intro isZero
        rw [isZero] at isLength
        change 0 = label.length at isLength
        omega
      rw [wireForm, decodeLabels, if_neg nonzero, isLength, if_neg, List.drop_left,
        List.take_left, induction fun other member => valid other (List.mem_cons_of_mem _ member)]
      · rfl
      · rw [List.length_append]
        omega

theorem wireForm_injective {labels' : List (List UInt8)} (valid : LabelsValid labels)
    (valid' : LabelsValid labels') (same : wireForm labels = wireForm labels') :
    labels = labels' := by
  have decoded := decodeLabels_wireForm fun label member =>
    ⟨(valid.2 label member).1, (valid.2 label member).2.1⟩
  rw [same, decodeLabels_wireForm fun label member =>
    ⟨(valid'.2 label member).1, (valid'.2 label member).2.1⟩] at decoded
  exact (Option.some.inj decoded).symm

/-- The last character of a name is one of its last label. -/
theorem spelling_last (valid : LabelsValid labels) :
    ∃ front character, spelling labels = front ++ [character] ∧ character ≠ dot := by
  rcases valid with ⟨nonempty, all⟩
  induction labels with
  | nil => exact absurd rfl nonempty
  | cons label labels induction =>
      cases labels with
      | nil =>
          rcases all label List.mem_cons_self with ⟨positive, _, characters⟩
          rcases List.eq_nil_or_concat label with rfl | ⟨front, character, rfl⟩
          · exact absurd positive (by decide)
          · have isValid := characters character (by simp)
            refine ⟨front, character, List.concat_eq_append, ?_⟩
            rintro rfl
            rw [nameCharValid_dot] at isValid
            cases isValid
      | cons second labels =>
          rcases induction (List.cons_ne_nil _ _) fun other member =>
            all other (List.mem_cons_of_mem _ member) with ⟨front, character, isLast, notDot⟩
          refine ⟨label ++ dot :: front, character, ?_, notDot⟩
          rw [spelling, isLast, List.append_assoc, List.cons_append]

theorem Accepts.withoutDot_eq (accepts : Accepts limit name labels) :
    withoutDot name.characters = spelling labels := by
  rcases spelling_last accepts.valid with ⟨front, character, isLast, notDot⟩
  unfold withoutDot
  rcases accepts.spelled with isName | isName
  · rw [isName, isLast, List.getLast?_concat, if_neg]
    intro isDot
    exact notDot (Option.some.inj isDot)
  · rw [isName, List.getLast?_concat, if_pos rfl, List.dropLast_concat]

theorem nameEncode_iff_accepts {wire : List UInt8} :
    nameEncode limit name = .done wire ↔
      ∃ labels, Accepts limit name labels ∧ wire = wireForm labels := by
  rw [nameEncode_iff]
  constructor
  · rintro ⟨labels, valid, spelled, rfl, fits⟩
    rw [length_wireForm] at fits
    exact ⟨labels, ⟨valid, spelled, fits⟩, rfl⟩
  · rintro ⟨labels, ⟨valid, spelled, fits⟩, rfl⟩
    rw [← length_wireForm] at fits
    exact ⟨labels, valid, spelled, rfl, fits⟩

/-- A query asks the question that the response to it is compared with. -/
theorem dnsQueryBuild_question {capacity : Nat} {id : UInt16} {query : List UInt8}
    (isQuery : dnsQueryBuild capacity id name = .done query) :
    ∃ wire, nameEncode 256 name = .done wire ∧
      query.drop dnsHeaderSize = wire ++ (be16Write 1 ++ be16Write 1) ∧
      query.length = 12 + wire.length + 4 := by
  unfold dnsQueryBuild at isQuery
  split at isQuery
  · cases isQuery
  rcases Checked.bind_eq_done isQuery with ⟨wire, isWire, isQuery⟩
  cases isQuery
  rcases nameEncode_iff_accepts.mp isWire with ⟨labels, ⟨valid, spelled, fits⟩, rfl⟩
  have isMax : wireNameMax = 255 := rfl
  refine ⟨wireForm labels, nameEncode_iff_accepts.mpr ⟨labels, ⟨valid, spelled, ?_⟩, rfl⟩,
    ?_, ?_⟩
  · omega
  · simp only [List.append_assoc]
    rfl
  · simp only [List.length_append, length_be16Write, List.length_replicate]

end Labels

/-- `name_encode` accepts exactly the names whose labels and whose encoding are short enough,
and stores the encoding; names with the same encoding differ at most by a last dot, and the
question of a query is the one that is expected in a response. -/
theorem dns_names_exact (limit : Nat) (name : CString) (out : Nat → UInt8) :
    (∀ length, (encodeInto limit name out).2 = .done length ↔
      ∃ labels, Accepts limit name labels ∧ length = wireLength labels) ∧
    ((¬ ∃ labels, Accepts limit name labels) →
      (encodeInto limit name out).2 = .failed ()) ∧
    (∀ labels, Accepts limit name labels →
      (encodeInto limit name out).1 = storeAt out 0 (wireForm labels) ∧
      (wireForm labels).length = wireLength labels ∧
      decodeLabels (wireForm labels) = some labels) ∧
    (∀ limit' other labels labels', Accepts limit name labels →
      Accepts limit' other labels' → wireForm labels = wireForm labels' →
      withoutDot name.characters = withoutDot other.characters) ∧
    ∀ capacity id query, dnsQueryBuild capacity id name = .done query →
      ∀ flags answers authorities additional records,
        flags &&& 0x8000 ≠ 0 → flags &&& 0x7800 = 0 →
        ∀ response, response = be16Write id ++ (be16Write flags ++ (be16Write 1 ++
          (be16Write answers ++ (be16Write authorities ++ (be16Write additional ++
            (query.drop dnsHeaderSize ++ records)))))) →
        dnsResponseParse response id name =
          if flags &&& 0x000F = 3 then .failed .nxdomain
          else if flags &&& 0x000F ≠ 0 then .failed .server
          else answersLoop response answers.toNat query.length := by
  have stores := encodeInto_stores limit name out
  refine ⟨?_, ?_, ?_, ?_, ?_⟩
  · intro length
    rw [stores.result]
    constructor
    · intro isDone
      rcases Checked.recover_eq_done isDone with ⟨wire, isWire, isLength⟩ | ⟨_, _, impossible⟩
      · rcases nameEncode_iff_accepts.mp isWire with ⟨labels, accepts, rfl⟩
        cases isLength
        exact ⟨labels, accepts, length_wireForm labels⟩
      · cases impossible
    · rintro ⟨labels, accepts, rfl⟩
      rw [nameEncode_iff_accepts.mpr ⟨labels, accepts, rfl⟩, Checked.recover, length_wireForm]
  · intro none
    have safe := nameEncode_safe limit name
    rw [stores.result]
    cases encoded : nameEncode limit name with
    | done wire =>
        rcases nameEncode_iff_accepts.mp encoded with ⟨labels, accepts, _⟩
        exact absurd ⟨labels, accepts⟩ none
    | failed error => rfl
    | outside =>
        rw [encoded] at safe
        exact safe.elim
    | endless =>
        rw [encoded] at safe
        exact safe.elim
  · intro labels accepts
    refine ⟨stores.bytes _ (nameEncode_iff_accepts.mpr ⟨labels, accepts, rfl⟩),
      length_wireForm labels, decodeLabels_wireForm fun label member => ?_⟩
    have bounds := accepts.valid.2 label member
    exact ⟨bounds.1, bounds.2.1⟩
  · intro limit' other labels labels' accepts accepts' same
    rw [accepts.withoutDot_eq, accepts'.withoutDot_eq,
      wireForm_injective accepts.valid accepts'.valid same]
  · intro capacity id query isQuery flags answers authorities additional records isResponse
      noOpcode response isMessage
    rcases dnsQueryBuild_question isQuery with ⟨wire, isWire, isQuestion, isLength⟩
    rw [isQuestion, List.append_assoc, List.append_assoc] at isMessage
    rw [isLength]
    exact (dnsResponseParse_question isMessage isResponse noOpcode isWire rfl).2

end Katela.Net
