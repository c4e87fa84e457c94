import Mathlib.Algebra.Order.BigOperators.Group.List
import Marty.Lib.BigEndian

/-! `PassportBiometricProcessor`: the records of a data group, each a CBEFF header, the length of
its data and the data.  The times of the headers and the log are left out. -/

universe u

namespace Marty.Security.BiometricRecords

open Lib.BigEndian

inductive BiometricType
  | face | finger | iris | voice | dna
  deriving DecidableEq

structure BiometricTemplateError where
  message : String
  deriving DecidableEq

structure BiometricHeader where
  formatOwner : Nat
  formatType : Nat
  biometricType : BiometricType
  biometricSubtype : Nat
  formatOwner_pos : 0 < formatOwner
  formatType_pos : 0 < formatType
  deriving DecidableEq

def BiometricHeader.new (formatOwner formatType : Nat) (biometricType : BiometricType)
    (biometricSubtype : Nat) : Except String BiometricHeader :=
  if howner : 0 < formatOwner then
    if htype : 0 < formatType then
      .ok ⟨formatOwner, formatType, biometricType, biometricSubtype, howner, htype⟩
    else .error "Invalid format type"
  else .error "Invalid format owner"

def parseHeader (headerData : Bytes) (bioType : BiometricType) : Except String BiometricHeader := do
  if headerData.length < 20 then .error "Invalid CBEFF header length"
  let formatOwner ← unpack 2 (slice headerData 0 2)
  let formatType ← unpack 2 (slice headerData 2 4)
  let subtype ← unpack 2 (slice headerData 4 6)
  BiometricHeader.new formatOwner formatType bioType subtype

def parseCbeffHeader (headerData : Bytes) (bioType : BiometricType) :
    Except String BiometricHeader :=
  (parseHeader headerData bioType).mapError ("Failed to parse CBEFF header: " ++ ·)

section

variable {α : Type u}

/-- The loop of `process_dg3_fingerprint` and `process_dg4_iris`, which make a template of each
record. -/
def processRecords (bioType : BiometricType) (template : BiometricHeader → Bytes → Except String α)
    (data : Bytes) (offset : Nat) : Except String (List α) :=
  if offset + 20 < data.length then
    match parseCbeffHeader (slice data offset (offset + 20)) bioType with
    | .error e => .error e
    | .ok header =>
      if offset + 24 > data.length then .ok []
      else
        match unpack 4 (slice data (offset + 20) (offset + 24)) with
        | .error e => .error e
        | .ok templateLength =>
          if offset + 24 + templateLength > data.length then .ok []
          else
            match template header
              (slice data (offset + 24) (offset + 24 + templateLength)) with
            | .error e => .error e
            | .ok made =>
              (processRecords bioType template data (offset + 24 + templateLength)).map (made :: ·)
  else .ok []
termination_by data.length - offset

/-- A data group, by its name in the messages. -/
def processGroup (what : String) (bioType : BiometricType)
    (template : BiometricHeader → Bytes → Except String α) (data : Bytes) :
    Except BiometricTemplateError (List α) :=
  (processRecords bioType template data 0).mapError fun e =>
    ⟨"Failed to process " ++ what ++ " data: " ++ e⟩

end

/-- What a header says. -/
def headerField (headerData : Bytes) (index : Nat) : Nat :=
  value (slice headerData (2 * index) (2 * index + 2))

structure Record where
  header : Bytes
  data : Bytes
  length_header : header.length = 20
  formatOwner_pos : 0 < headerField header 0
  formatType_pos : 0 < headerField header 1
  length_data : data.length < 2 ^ 32
  deriving DecidableEq

namespace Record

variable (r : Record)

def encode : Bytes := r.header ++ (pack 4 r.data.length ++ r.data)

def encodeAll (rs : List Record) : Bytes := rs.flatMap encode

def cbeffHeader (bioType : BiometricType) : BiometricHeader where
  formatOwner := headerField r.header 0
  formatType := headerField r.header 1
  biometricType := bioType
  biometricSubtype := headerField r.header 2
  formatOwner_pos := r.formatOwner_pos
  formatType_pos := r.formatType_pos

theorem length_encode : r.encode.length = 24 + r.data.length := by
  rw [encode, List.length_append, List.length_append, length_pack, r.length_header]
  omega

theorem value_length : value (pack 4 r.data.length) = r.data.length :=
  value_pack (lt_of_lt_of_eq r.length_data rfl)

end Record

theorem parseCbeffHeader_of_length {headerData : Bytes} (bioType : BiometricType)
    (h : headerData.length = 20) : parseCbeffHeader headerData bioType =
      (BiometricHeader.new (headerField headerData 0) (headerField headerData 1) bioType
        (headerField headerData 2)).mapError ("Failed to parse CBEFF header: " ++ ·) := by
  have hslice : ∀ index ≤ 2, unpack 2 (slice headerData (2 * index) (2 * index + 2)) =
      .ok (headerField headerData index) := by
    intro index hindex
    apply unpack_of_length
    rw [length_slice (by omega)]
    omega
  have howner := hslice 0 (by omega)
  have htype := hslice 1 (by omega)
  have hsubtype := hslice 2 (by omega)
  simp only [Nat.mul_zero, Nat.mul_one, Nat.reduceMul, Nat.reduceAdd] at howner htype hsubtype
  rw [parseCbeffHeader, parseHeader, if_neg (by omega), howner, htype, hsubtype]
  rfl

theorem Record.parseCbeffHeader_header (r : Record) (bioType : BiometricType) :
    parseCbeffHeader r.header bioType = .ok (r.cbeffHeader bioType) := by
  rw [parseCbeffHeader_of_length bioType r.length_header, BiometricHeader.new,
    dif_pos r.formatOwner_pos, dif_pos r.formatType_pos]
  rfl

/-- A header that is not refused. -/
def Accepted (rest : Bytes) : Prop :=
  0 < headerField rest 0 ∧ 0 < headerField rest 1

/-- The length of the data, as the record states it. -/
def statedLength (rest : Bytes) : Nat := value (slice rest 20 24)

/-- A rest that the loop leaves without an error: too short for a header, or for the record that it
begins. -/
def Truncated (rest : Bytes) : Prop :=
  rest.length ≤ 20 ∨ Accepted rest ∧ rest.length < 24 + statedLength rest

theorem headerField_slice (rest : Bytes) {index : Nat} (h : index ≤ 2) :
    headerField (slice rest 0 20) index = headerField rest index := by
  rw [headerField, slice_slice (by omega), headerField]

theorem headerField_append {header : Bytes} (hlength : header.length = 20) (after : Bytes)
    {index : Nat} (h : index ≤ 2) :
    headerField (header ++ after) index = headerField header index := by
  rw [headerField, slice_append_of_le (by omega), headerField]

theorem parseCbeffHeader_of_not_accepted {rest : Bytes} (bioType : BiometricType)
    (hlength : 20 < rest.length) (h : ¬ Accepted rest) :
    ∃ e, parseCbeffHeader (slice rest 0 20) bioType = .error e := by
  rw [parseCbeffHeader_of_length bioType (length_slice hlength.le),
    headerField_slice rest (by decide), headerField_slice rest (by decide), BiometricHeader.new]
  by_cases howner : 0 < headerField rest 0
  · have htype : ¬ 0 < headerField rest 1 := fun htype => h ⟨howner, htype⟩
    rw [dif_pos howner, dif_neg htype]
    exact ⟨_, rfl⟩
  · rw [dif_neg howner]
    exact ⟨_, rfl⟩

theorem parseCbeffHeader_of_accepted {rest : Bytes} (bioType : BiometricType)
    (hlength : 20 < rest.length) (h : Accepted rest) :
    parseCbeffHeader (slice rest 0 20) bioType =
      .ok ⟨headerField rest 0, headerField rest 1, bioType, headerField rest 2, h.1, h.2⟩ := by
  rw [parseCbeffHeader_of_length bioType (length_slice hlength.le),
    headerField_slice rest (by decide), headerField_slice rest (by decide),
    headerField_slice rest (by decide), BiometricHeader.new, dif_pos h.1, dif_pos h.2]
  rfl

namespace Record

theorem statedLength_encode (r : Record) (after : Bytes) :
    statedLength (r.encode ++ after) = r.data.length := by
  have hslice : slice (r.encode ++ after) 20 24 = pack 4 r.data.length := by
    have h := slice_append r.header (pack 4 r.data.length) (r.data ++ after)
    rw [r.length_header, length_pack] at h
    rw [encode, List.append_assoc, List.append_assoc, h]
  rw [statedLength, hslice, value_length]

theorem headerField_encode (r : Record) (after : Bytes) {index : Nat} (h : index ≤ 2) :
    headerField (r.encode ++ after) index = headerField r.header index := by
  rw [encode, List.append_assoc, headerField_append r.length_header _ h]

theorem accepted_encode (r : Record) (after : Bytes) : Accepted (r.encode ++ after) := by
  constructor
  · rw [headerField_encode r after (by decide)]
    exact r.formatOwner_pos
  · rw [headerField_encode r after (by decide)]
    exact r.formatType_pos

theorem data_encode (r : Record) (after : Bytes) :
    slice (r.encode ++ after) 24 (24 + r.data.length) = r.data := by
  have h := slice_append (r.header ++ pack 4 r.data.length) r.data after
  rw [List.length_append, r.length_header, length_pack] at h
  rw [encode, ← List.append_assoc, List.append_assoc]
  exact h

/-- A rest that is long enough for the record that it begins. -/
theorem exists_encode {rest : Bytes} (hlength : 20 < rest.length) (h : Accepted rest)
    (hlong : 24 + statedLength rest ≤ rest.length) :
    ∃ (r : Record) (after : Bytes), rest = r.encode ++ after := by
  have hstated : (slice rest 24 (24 + statedLength rest)).length = statedLength rest := by
    rw [length_slice hlong, Nat.add_sub_cancel_left]
  have hlt : statedLength rest < 2 ^ 32 := by
    have hvalue := value_lt (slice rest 20 24)
    rwa [length_slice (by omega)] at hvalue
  let r : Record := {
    header := slice rest 0 20
    data := slice rest 24 (24 + statedLength rest)
    length_header := length_slice hlength.le
    formatOwner_pos := by rw [headerField_slice rest (by decide)]; exact h.1
    formatType_pos := by rw [headerField_slice rest (by decide)]; exact h.2
    length_data := by rw [hstated]; exact hlt }
  have hpack : pack 4 r.data.length = slice rest 20 24 := by
    have hpack := pack_value (slice rest 20 24)
    rw [length_slice (by omega)] at hpack
    rw [hstated]
    exact hpack
  refine ⟨r, rest.drop (24 + statedLength rest), ?_⟩
  calc
    rest = slice rest 0 20 ++ (slice rest 20 24 ++
        (slice rest 24 (24 + statedLength rest) ++ rest.drop (24 + statedLength rest))) := by
      rw [slice_append_drop (by omega), slice_append_drop (by omega), slice_append_drop (by omega),
        List.drop_zero]
    _ = r.encode ++ rest.drop (24 + statedLength rest) := by
      rw [encode, hpack, List.append_assoc, List.append_assoc]

end Record

section

variable {α : Type u} (bioType : BiometricType)
  (template : BiometricHeader → Bytes → Except String α)

/-- One turn of the loop, over what is left of the data. -/
theorem processRecords_append (before rest : Bytes) :
    processRecords bioType template (before ++ rest) before.length =
      if 20 < rest.length then
        match parseCbeffHeader (slice rest 0 20) bioType with
        | .error e => .error e
        | .ok header =>
          if rest.length < 24 + statedLength rest then .ok []
          else
            match template header (slice rest 24 (24 + statedLength rest)) with
            | .error e => .error e
            | .ok made =>
              (processRecords bioType template (before ++ rest)
                (before.length + (24 + statedLength rest))).map (made :: ·)
      else .ok [] := by
  have hheader : slice (before ++ rest) before.length (before.length + 20) = slice rest 0 20 :=
    slice_append_right before rest 0 20
  have hstated : slice (before ++ rest) (before.length + 20) (before.length + 24) =
      slice rest 20 24 := slice_append_right before rest 20 24
  have hdata : slice (before ++ rest) (before.length + 24)
      (before.length + 24 + statedLength rest) = slice rest 24 (24 + statedLength rest) := by
    rw [Nat.add_assoc]
    exact slice_append_right before rest 24 (24 + statedLength rest)
  rw [processRecords, hheader, hstated, List.length_append]
  by_cases hlength : 20 < rest.length
  · rw [if_pos (by omega), if_pos hlength]
    cases parseCbeffHeader (slice rest 0 20) bioType with
    | error e => rfl
    | ok header =>
      by_cases hfour : rest.length < 24
      · simp only [if_pos (show before.length + 24 > before.length + rest.length by omega),
          if_pos (show rest.length < 24 + statedLength rest by omega)]
      · have hunpack : unpack 4 (slice rest 20 24) = .ok (statedLength rest) := by
          apply unpack_of_length
          rw [length_slice (by omega)]
        simp only [if_neg (show ¬ before.length + 24 > before.length + rest.length by omega),
          hunpack]
        by_cases hshort : rest.length < 24 + statedLength rest
        · rw [if_pos (by omega), if_pos hshort]
        · rw [if_neg (by omega), if_neg hshort, hdata, Nat.add_assoc]
  · rw [if_neg (by omega), if_neg hlength]

theorem processRecords_truncated (before : Bytes) {rest : Bytes} (h : Truncated rest) :
    processRecords bioType template (before ++ rest) before.length = .ok [] := by
  rw [processRecords_append]
  by_cases hlength : 20 < rest.length
  · rcases h with hshort | ⟨haccepted, hshort⟩
    · omega
    · rw [if_pos hlength, parseCbeffHeader_of_accepted bioType hlength haccepted]
      exact if_pos hshort
  · rw [if_neg hlength]

theorem processRecords_encode (before after : Bytes) (r : Record) :
    processRecords bioType template (before ++ (r.encode ++ after)) before.length =
      match template (r.cbeffHeader bioType) r.data with
      | .error e => .error e
      | .ok made => (processRecords bioType template ((before ++ r.encode) ++ after)
          (before ++ r.encode).length).map (made :: ·) := by
  have hlength : 20 < (r.encode ++ after).length := by
    rw [List.length_append, r.length_encode]
    omega
  have hheader : parseCbeffHeader (slice (r.encode ++ after) 0 20) bioType =
      .ok (r.cbeffHeader bioType) := by
    have hslice : slice (r.encode ++ after) 0 20 = r.header := by
      have h := slice_append [] r.header (pack 4 r.data.length ++ r.data ++ after)
      rw [r.length_header] at h
      rw [Record.encode, List.append_assoc]
      exact h
    rw [hslice, r.parseCbeffHeader_header bioType]
  have hlong : ¬ (r.encode ++ after).length < 24 + r.data.length := by
    rw [List.length_append, r.length_encode]
    omega
  rw [processRecords_append, if_pos hlength, hheader, r.statedLength_encode, r.data_encode]
  dsimp only
  rw [if_neg hlong, List.append_assoc, List.length_append, r.length_encode]

/-- A loop that ends without an error has read whole records, and stopped at a truncated one or at
the end. -/
theorem processRecords_eq_ok_iff (before rest : Bytes) (made : List α) :
    processRecords bioType template (before ++ rest) before.length = .ok made ↔
      ∃ rs left, rest = Record.encodeAll rs ++ left ∧ Truncated left ∧
        List.Forall₂ (fun r t => template (r.cbeffHeader bioType) r.data = .ok t) rs made := by
  constructor
  · intro h
    induction hn : rest.length using Nat.strong_induction_on generalizing before rest made with
    | _ n ih =>
      by_cases htruncated : Truncated rest
      · rw [processRecords_truncated bioType template before htruncated] at h
        cases h
        exact ⟨[], rest, rfl, htruncated, .nil⟩
      · have hlength : 20 < rest.length := by
          by_contra hle
          exact htruncated (.inl (by omega))
        by_cases haccepted : Accepted rest
        · have hlong : 24 + statedLength rest ≤ rest.length := by
            by_contra hlt
            exact htruncated (.inr ⟨haccepted, by omega⟩)
          obtain ⟨r, after, rfl⟩ := Record.exists_encode hlength haccepted hlong
          rw [processRecords_encode] at h
          cases htemplate : template (r.cbeffHeader bioType) r.data with
          | error e =>
            rw [htemplate] at h
            cases h
          | ok t =>
            rw [htemplate] at h
            cases hrest : processRecords bioType template ((before ++ r.encode) ++ after)
                (before ++ r.encode).length with
            | error e =>
              simp only [hrest] at h
              cases h
            | ok ts =>
              simp only [hrest] at h
              cases h
              have hlt : after.length < n := by
                rw [← hn, List.length_append, r.length_encode]
                omega
              obtain ⟨rs, left, rfl, hleft, hmade⟩ := ih after.length hlt _ _ _ hrest rfl
              refine ⟨r :: rs, left, ?_, hleft, .cons htemplate hmade⟩
              rw [Record.encodeAll, Record.encodeAll, List.flatMap_cons, List.append_assoc]
        · obtain ⟨e, he⟩ := parseCbeffHeader_of_not_accepted bioType hlength haccepted
          rw [processRecords_append, if_pos hlength, he] at h
          cases h
  · rintro ⟨rs, left, rfl, hleft, hmade⟩
    induction hmade generalizing before with
    | nil => exact processRecords_truncated bioType template before hleft
    | @cons r t rs ts htemplate hmade ih =>
      have hrest := ih (before ++ r.encode)
      rw [Record.encodeAll, List.flatMap_cons, List.append_assoc, processRecords_encode, htemplate]
      rw [Record.encodeAll] at hrest
      simp only [hrest]
      rfl

end

section

variable {α : Type u} (what : String) (bioType : BiometricType)
  (template : BiometricHeader → Bytes → Except String α) (headerOf : α → BiometricHeader)
  (dataOf : α → Bytes)

/-- A template of every record, with its header and its data. -/
def Keeps : Prop :=
  ∀ header data, ∃ made, template header data = .ok made ∧ headerOf made = header ∧
    dataOf made = data

/-- One template for each record, in order, with its header and its data. -/
def Templates (rs : List Record) (made : List α) : Prop :=
  List.Forall₂ (fun r t => headerOf t = r.cbeffHeader bioType ∧ dataOf t = r.data) rs made

/-- What ends without an error has lost nothing: the data are the records of the templates. -/
def NoSilentLoss (process : Bytes → Except BiometricTemplateError (List α)) (data : Bytes) : Prop :=
  ∀ made, process data = .ok made →
    ∃ rs, data = Record.encodeAll rs ∧ Templates bioType headerOf dataOf rs made

/-- After the whole records at its start, the data end, or the next header is refused. -/
def NothingTruncated (data : Bytes) : Prop :=
  ∀ rs left, data = Record.encodeAll rs ++ left → Truncated left → left = []

theorem processGroup_eq_ok_iff (data : Bytes) (made : List α) :
    processGroup what bioType template data = .ok made ↔
      ∃ rs left, data = Record.encodeAll rs ++ left ∧ Truncated left ∧
        List.Forall₂ (fun r t => template (r.cbeffHeader bioType) r.data = .ok t) rs made := by
  have hrecords := processRecords_eq_ok_iff bioType template [] data made
  rw [List.nil_append, List.length_nil] at hrecords
  rw [← hrecords, processGroup]
  cases processRecords bioType template data 0 with
  | error e => constructor <;> intro h <;> cases h
  | ok made' => rw [Except.mapError, Except.ok.injEq, Except.ok.injEq]

variable {what bioType template headerOf dataOf}

theorem exists_record_of_mem {data : Bytes} {made : List α}
    (h : processGroup what bioType template data = .ok made) {t : α} (ht : t ∈ made) :
    ∃ r : Record, template (r.cbeffHeader bioType) r.data = .ok t := by
  obtain ⟨rs, left, -, -, hmade⟩ := (processGroup_eq_ok_iff what bioType template data made).mp h
  clear h
  induction hmade with
  | nil => cases ht
  | @cons r t' rs made ht' _ ih =>
    rcases List.mem_cons.mp ht with rfl | hmem
    · exact ⟨r, ht'⟩
    · exact ih hmem

variable (what)

theorem Templates.length_encodeAll {rs : List Record} {made : List α}
    (h : Templates bioType headerOf dataOf rs made) :
    (Record.encodeAll rs).length = (made.map fun t => 24 + (dataOf t).length).sum := by
  induction h with
  | nil => rfl
  | @cons r t rs made ht _ ih =>
    rw [Record.encodeAll] at ih
    rw [Record.encodeAll, List.flatMap_cons, List.length_append, ih, r.length_encode, List.map_cons,
      List.sum_cons, ht.2]

theorem templates_of_keeps (hkeeps : Keeps template headerOf dataOf) {rs : List Record}
    {made : List α}
    (h : List.Forall₂ (fun r t => template (r.cbeffHeader bioType) r.data = .ok t) rs made) :
    Templates bioType headerOf dataOf rs made := by
  refine h.imp fun r t ht => ?_
  obtain ⟨t', ht', hheader, hdata⟩ := hkeeps (r.cbeffHeader bioType) r.data
  rw [ht] at ht'
  cases ht'
  exact ⟨hheader, hdata⟩

theorem exists_forall₂_of_keeps (hkeeps : Keeps template headerOf dataOf) (rs : List Record) :
    ∃ made, List.Forall₂ (fun r t => template (r.cbeffHeader bioType) r.data = .ok t) rs made := by
  induction rs with
  | nil => exact ⟨[], .nil⟩
  | cons r rs ih =>
    obtain ⟨made, hmade⟩ := ih
    obtain ⟨t, ht, -⟩ := hkeeps (r.cbeffHeader bioType) r.data
    exact ⟨t :: made, .cons ht hmade⟩

/-- Whole records give their templates, whatever truncated record follows them. -/
theorem processGroup_encodeAll_append (hkeeps : Keeps template headerOf dataOf) (rs : List Record)
    {left : Bytes} (hleft : Truncated left) :
    ∃ made, processGroup what bioType template (Record.encodeAll rs ++ left) = .ok made ∧
      Templates bioType headerOf dataOf rs made := by
  obtain ⟨made, hmade⟩ := exists_forall₂_of_keeps hkeeps rs
  refine ⟨made, ?_, templates_of_keeps hkeeps hmade⟩
  exact (processGroup_eq_ok_iff what bioType template _ made).mpr ⟨rs, left, rfl, hleft, hmade⟩

theorem truncated_nil : Truncated [] := .inl (Nat.zero_le 20)

theorem processGroup_encodeAll (hkeeps : Keeps template headerOf dataOf) (rs : List Record) :
    ∃ made, processGroup what bioType template (Record.encodeAll rs) = .ok made ∧
      Templates bioType headerOf dataOf rs made := by
  have h := @processGroup_encodeAll_append α what bioType template headerOf dataOf hkeeps rs _
    truncated_nil
  rwa [List.append_nil] at h

theorem noSilentLoss_processGroup_iff (hkeeps : Keeps template headerOf dataOf) (data : Bytes) :
    NoSilentLoss bioType headerOf dataOf (processGroup what bioType template) data ↔
      NothingTruncated data := by
  constructor
  · rintro h rs left rfl hleft
    obtain ⟨made, hprocess, hmade⟩ := processGroup_encodeAll_append what hkeeps rs hleft
    obtain ⟨rs', hdata, hmade'⟩ := h made hprocess
    have hlength := congrArg List.length hdata
    -- the records of the same templates are as long
    rw [List.length_append, hmade.length_encodeAll, hmade'.length_encodeAll] at hlength
    exact List.eq_nil_of_length_eq_zero (by omega)
  · intro h made hprocess
    obtain ⟨rs, left, hdata, hleft, hmade⟩ :=
      (processGroup_eq_ok_iff what bioType template data made).mp hprocess
    refine ⟨rs, ?_, templates_of_keeps hkeeps hmade⟩
    rw [hdata, h rs left hdata hleft, List.append_nil]

/-- A data group ends with templates, each of at least 24 of its bytes, or with an error. -/
theorem processGroup_ends (hkeeps : Keeps template headerOf dataOf) (data : Bytes) :
    (∃ made, processGroup what bioType template data = .ok made ∧
      24 * made.length ≤ data.length) ∨
      ∃ e, processGroup what bioType template data = .error e := by
  cases hprocess : processGroup what bioType template data with
  | error e => exact .inr ⟨e, rfl⟩
  | ok made =>
    obtain ⟨rs, left, rfl, -, hmade⟩ :=
      (processGroup_eq_ok_iff what bioType template data made).mp hprocess
    have hlength := (templates_of_keeps hkeeps hmade).length_encodeAll
    have hsum : made.length • 24 ≤ (made.map fun t => 24 + (dataOf t).length).sum := by
      have h := List.card_nsmul_le_sum (made.map fun t => 24 + (dataOf t).length) 24
        (by simp only [List.mem_map]; rintro n ⟨t, -, rfl⟩; exact Nat.le_add_right 24 _)
      rwa [List.length_map] at h
    refine .inl ⟨made, rfl, ?_⟩
    rw [List.length_append, hlength]
    rw [nsmul_eq_mul, Nat.cast_id] at hsum
    omega

end

end Marty.Security.BiometricRecords
