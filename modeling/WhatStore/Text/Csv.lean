import WhatStore.Text.Numbers
import Mathlib.Data.List.TakeWhile

/-!
# Exports as CSV

`csv.util`: a field is quoted only when it needs to be, and a text that a spreadsheet
would run as a formula is neutralised. Reading an export back by RFC 4180 gives the
texts of its cells.
-/

namespace WhatStore.Text

/-! ## Writing -/

/-- A value of a row; `null` and `undefined` are absent. -/
inductive CsvValue
  | absent
  | text (str : Chars)
  | number (n : Number)

/-- The class `[=+\-@\t\r]`. -/
def formulaChars : Chars := ['=', '+', '-', '@', '\t', '\r']

/-- The test `/^[=+\-@\t\r]/`. -/
def startsFormula : Chars → Bool
  | [] => false
  | c :: _ => formulaChars.contains c

/-- The part `\d+(\.\d+)?$` of the test below. -/
def isUnsignedDecimal (str : Chars) : Bool :=
  !(str.takeWhile Char.isDigit).isEmpty && match str.dropWhile Char.isDigit with
    | [] => true
    | '.' :: fraction => !fraction.isEmpty && fraction.all Char.isDigit
    | _ => false

/-- The test `/^[+-]?\d+(\.\d+)?$/`. -/
def isPlainNumber : Chars → Bool
  | [] => false
  | c :: str => isUnsignedDecimal (if c == '+' || c == '-' then str else c :: str)

/-- The class `[",\n\r]`. -/
def quotedChars : Chars := ['"', ',', '\n', '\r']

/-- `str.replace(/"/g, '""')` -/
def doubleQuotes (str : Chars) : Chars :=
  str.flatMap fun c => if c == '"' then ['"', '"'] else [c]

def neutralised (str : Chars) : Chars :=
  if startsFormula str && !isPlainNumber str then '\'' :: str else str

def quoted (str : Chars) : Chars :=
  if str.any quotedChars.contains then '"' :: doubleQuotes str ++ ['"'] else str

def escapeCsvField : CsvValue → Chars
  | .absent => []
  | .text str => quoted (neutralised str)
  | .number n => quoted n.toText

def csvLine (row : List CsvValue) : Chars := [','].intercalate (row.map escapeCsvField)

def byteOrderMark : Char := '\uFEFF'

def toCsv (headers : List Chars) (rows : List (List CsvValue)) : Chars :=
  byteOrderMark :: ['\r', '\n'].intercalate ((headers.map CsvValue.text :: rows).map csvLine)

/-! ## Reading

A reader of RFC 4180. A text between two delimiters is any run of characters other
than quotes, commas and line breaks, or any text between quotes in which a quote is
doubled. The last line may end with a line break.
-/

abbrev Matrix := List (List Chars)

/-- Where the reader is: at the first character of a field, within a field, within
quotes, or after a quote within quotes. -/
inductive Place
  | first | within | inQuotes | afterQuote

def addChar (c : Char) : Matrix → Matrix
  | (field :: record) :: records => ((c :: field) :: record) :: records
  | matrix => matrix

def addField : Matrix → Matrix
  | record :: records => ([] :: record) :: records
  | matrix => matrix

def addRecord (matrix : Matrix) : Matrix := [[]] :: matrix

/-- What is read up to the end of the text, from the field at hand on. -/
def readFrom : Place → Chars → Option Matrix
  | .inQuotes, [] => none
  | _, [] => some [[[]]]
  | .inQuotes, '"' :: str => readFrom .afterQuote str
  | .inQuotes, c :: str => (readFrom .inQuotes str).map (addChar c)
  | .afterQuote, '"' :: str => (readFrom .inQuotes str).map (addChar '"')
  | .first, '"' :: str => readFrom .inQuotes str
  | _, ',' :: str => (readFrom .first str).map addField
  | _, ['\r', '\n'] => some [[[]]]
  | _, '\r' :: '\n' :: str => (readFrom .first str).map addRecord
  | .afterQuote, _ => none
  | _, c :: str =>
    if quotedChars.contains c then none else (readFrom .within str).map (addChar c)

/-- The records of a text, or none when it is not well formed. -/
def parseCsv (str : Chars) : Option Matrix := readFrom .first str

variable {str rest : Chars} {c : Char} {matrix : Matrix} {place : Place}

def addChars (str : Chars) (matrix : Matrix) : Matrix := str.foldr addChar matrix

@[simp] theorem addChars_nil : addChars [] = id := rfl

@[simp] theorem addChars_cons_cons (field : Chars) (record : List Chars) (records : Matrix) :
    addChars str ((field :: record) :: records) = ((str ++ field) :: record) :: records := by
  induction str with
  | nil => rfl
  | cons c str ih => rw [addChars, List.foldr_cons, ← addChars, ih]; rfl

theorem readFrom_char (hplace : place = .first ∨ place = .within) (hc : c ∉ quotedChars) :
    readFrom place (c :: str) = (readFrom .within str).map (addChar c) := by
  simp only [quotedChars, List.mem_cons, List.not_mem_nil, or_false, not_or] at hc
  obtain ⟨hquote, hcomma, hnewline, hreturn⟩ := hc
  rcases hplace with rfl | rfl
  · simp [readFrom, quotedChars, hquote, hcomma, hnewline, hreturn]
  · simp [readFrom, quotedChars, hquote, hcomma, hnewline, hreturn]

theorem readFrom_within (hstr : ∀ c ∈ str, c ∉ quotedChars) :
    readFrom .within (str ++ rest) = (readFrom .within rest).map (addChars str) := by
  induction str with
  | nil => simp
  | cons c str ih =>
      rw [List.cons_append, readFrom_char (.inr rfl) (hstr c List.mem_cons_self),
        ih fun c hc => hstr c (List.mem_cons_of_mem _ hc), Option.map_map]
      rfl

theorem readFrom_inQuotes :
    readFrom .inQuotes (doubleQuotes str ++ '"' :: rest) =
      (readFrom .afterQuote rest).map (addChars str) := by
  induction str with
  | nil => simp [doubleQuotes, readFrom]
  | cons c str ih =>
      rw [doubleQuotes, List.flatMap_cons, ← doubleQuotes]
      by_cases hquote : c = '"'
      · subst hquote
        simp only [beq_self_eq_true, if_true, List.cons_append, List.nil_append, readFrom, ih,
          Option.map_map]
        rfl
      · simp only [beq_iff_eq, hquote, if_false, List.cons_append, List.nil_append, readFrom, ih,
          Option.map_map]
        rfl

inductive Delimited : Chars → Prop
  | stop : Delimited []
  | comma (str : Chars) : Delimited (',' :: str)
  | newline (str : Chars) : Delimited ('\r' :: '\n' :: str)

theorem Delimited.readFrom_eq (h : Delimited rest) (hplace : ¬ place matches .inQuotes) :
    readFrom place rest = readFrom .first rest := by
  cases h with
  | stop => cases place <;> simp_all [readFrom]
  | comma str => cases place <;> simp_all [readFrom]
  | newline str => cases place <;> cases str <;> simp_all [readFrom]

theorem readFrom_quoted (h : Delimited rest) :
    readFrom .first (quoted str ++ rest) = (readFrom .first rest).map (addChars str) := by
  unfold quoted
  split
  · rw [List.cons_append, List.cons_append, List.append_assoc, List.singleton_append, readFrom,
      readFrom_inQuotes, h.readFrom_eq (by simp)]
  · next hplain =>
      simp only [List.any_eq_true, List.contains_iff_mem, not_exists, not_and] at hplain
      cases str with
      | nil => simp
      | cons c str =>
          rw [List.cons_append, readFrom_char (.inl rfl) (hplain c List.mem_cons_self),
            readFrom_within fun c hc => hplain c (List.mem_cons_of_mem _ hc),
            h.readFrom_eq (by simp), Option.map_map]
          rfl

def quotedLine (fields : List Chars) : Chars := [','].intercalate (fields.map quoted)

/-- A record is read back, whatever follows its line. -/
theorem readFrom_record {fields : List Chars} {records : Matrix} (hfields : fields ≠ [])
    (hrest : Delimited rest) (hread : readFrom .first rest = some ([[]] :: records)) :
    readFrom .first (quotedLine fields ++ rest) = some (fields :: records) := by
  induction fields with
  | nil => exact absurd rfl hfields
  | cons field fields ih =>
      cases fields with
      | nil => simp [quotedLine, readFrom_quoted hrest, hread]
      | cons field' fields =>
          have hrecord := ih (by simp)
          simp only [quotedLine, List.map_cons, List.intercalate_cons_cons, List.append_assoc,
            List.cons_append, List.nil_append] at hrecord ⊢
          rw [readFrom_quoted (.comma _)]
          simp only [readFrom, hrecord, Option.map_some, addField, addChars_cons_cons,
            List.append_nil]

theorem readFrom_newline (h : str ≠ []) :
    readFrom .first ('\r' :: '\n' :: str) = (readFrom .first str).map addRecord := by
  cases str with
  | nil => exact absurd rfl h
  | cons c str => simp [readFrom]

theorem quotedLine_ne_nil {fields : List Chars} (h : 2 ≤ fields.length) :
    quotedLine fields ≠ [] := by
  match fields, h with
  | field :: field' :: fields, _ => simp [quotedLine, List.intercalate_cons_cons]

theorem readFrom_records {records : Matrix} (hrecords : records ≠ [])
    (hwidth : ∀ fields ∈ records, 2 ≤ fields.length) :
    readFrom .first (['\r', '\n'].intercalate (records.map quotedLine)) = some records := by
  induction records with
  | nil => exact absurd rfl hrecords
  | cons fields records ih =>
      have hfields := hwidth fields List.mem_cons_self
      have hne : fields ≠ [] := by
        rintro rfl
        simp at hfields
      cases records with
      | nil =>
          have hread := @readFrom_record _ fields [] hne .stop rfl
          simpa using hread
      | cons fields' records =>
          have hrest := ih (by simp) fun fields hmem => hwidth fields (List.mem_cons_of_mem _ hmem)
          have hlines : ['\r', '\n'].intercalate ((fields' :: records).map quotedLine) ≠ [] := by
            have hline := quotedLine_ne_nil (hwidth fields' (by simp))
            cases records <;> simp [List.intercalate_cons_cons, hline]
          rw [List.map_cons, List.map_cons, List.intercalate_cons_cons, List.append_assoc,
            ← List.map_cons]
          refine readFrom_record hne (.newline _) ?_
          refine (readFrom_newline hlines).trans ?_
          rw [hrest]
          rfl

/-! ## The texts of the cells -/

/-- The grammar `\d+`. -/
def Digits (str : Chars) : Prop := str ≠ [] ∧ ∀ c ∈ str, c.isDigit = true

/-- The grammar `\d+(\.\d+)?`. -/
def UnsignedDecimal (str : Chars) : Prop :=
  ∃ whole fraction : Chars, str = whole ++ fraction ∧ Digits whole ∧
    (fraction = [] ∨ ∃ digits, fraction = '.' :: digits ∧ Digits digits)

/-- The grammar `[+-]?\d+(\.\d+)?`. -/
def PlainNumber (str : Chars) : Prop :=
  UnsignedDecimal str ∨
    ∃ sign digits, str = sign :: digits ∧ (sign = '+' ∨ sign = '-') ∧ UnsignedDecimal digits

theorem isUnsignedDecimal_iff : isUnsignedDecimal str = true ↔ UnsignedDecimal str := by
  constructor
  · intro h
    rw [isUnsignedDecimal, Bool.and_eq_true] at h
    refine ⟨str.takeWhile Char.isDigit, str.dropWhile Char.isDigit,
      List.takeWhile_append_dropWhile.symm, ⟨by simpa using h.1, fun c hc =>
        List.mem_takeWhile_imp hc⟩, ?_⟩
    have hrest := h.2
    split at hrest
    · next hnil => exact .inl hnil
    · next digits hdot => exact .inr ⟨digits, hdot, by simpa [Digits] using hrest⟩
    · cases hrest
  · rintro ⟨whole, fraction, rfl, ⟨hne, hdigits⟩, hfraction⟩
    have hstop : fraction.takeWhile Char.isDigit = [] ∧ fraction.dropWhile Char.isDigit = fraction := by
      rcases hfraction with rfl | ⟨digits, rfl, -⟩
      · simp
      · simp [show Char.isDigit '.' = false from rfl]
    rw [isUnsignedDecimal, List.takeWhile_append_of_pos hdigits,
      List.dropWhile_append_of_pos hdigits, hstop.1, hstop.2]
    rcases hfraction with rfl | ⟨digits, rfl, hdigits'⟩
    · simpa using hne
    · simpa [hne, Digits] using hdigits'

theorem UnsignedDecimal.head (h : UnsignedDecimal (c :: str)) : c.isDigit = true := by
  obtain ⟨whole, fraction, heq, ⟨hne, hdigits⟩, -⟩ := h
  cases whole with
  | nil => exact absurd rfl hne
  | cons d whole =>
      rw [List.cons_append, List.cons.injEq] at heq
      exact heq.1 ▸ hdigits d List.mem_cons_self

theorem isPlainNumber_iff : isPlainNumber str = true ↔ PlainNumber str := by
  cases str with
  | nil =>
      constructor
      · nofun
      · rintro (⟨whole, fraction, heq, ⟨hne, -⟩, -⟩ | ⟨sign, digits, heq, -⟩)
        · exact absurd (List.append_eq_nil_iff.1 heq.symm).1 hne
        · cases heq
  | cons c str =>
      rw [isPlainNumber, isUnsignedDecimal_iff]
      by_cases hsign : c = '+' ∨ c = '-'
      · rw [if_pos (by simpa using hsign)]
        constructor
        · exact fun h => .inr ⟨c, str, rfl, hsign, h⟩
        · rintro (h | ⟨_, _, heq, -, h⟩)
          · have hdigit := h.head
            rcases hsign with rfl | rfl <;> cases hdigit
          · cases heq
            exact h
      · rw [if_neg (by simpa using hsign)]
        constructor
        · exact .inl
        · rintro (h | ⟨_, _, heq, hsign', -⟩)
          · exact h
          · cases heq
            exact absurd hsign' hsign

instance : DecidablePred PlainNumber := fun _ => decidable_of_iff _ isPlainNumber_iff

/-- The text begins with a character that makes a spreadsheet run it. -/
def StartsFormula (str : Chars) : Prop := ∃ c ∈ formulaChars, ∃ rest, str = c :: rest

theorem startsFormula_iff : startsFormula str = true ↔ StartsFormula str := by
  cases str with
  | nil =>
      constructor
      · nofun
      · rintro ⟨c, -, rest, heq⟩
        cases heq
  | cons c str =>
      rw [startsFormula, List.contains_iff_mem]
      constructor
      · exact fun h => ⟨c, h, str, rfl⟩
      · rintro ⟨_, h, _, heq⟩
        cases heq
        exact h

instance : DecidablePred StartsFormula := fun _ => decidable_of_iff _ startsFormula_iff

/-- The text of a cell: that of its value, where a formula has an apostrophe before it. -/
def cellText : CsvValue → Chars
  | .absent => []
  | .text str => if StartsFormula str ∧ ¬ PlainNumber str then '\'' :: str else str
  | .number n => n.toText

theorem neutralised_eq (str : Chars) : neutralised str = cellText (.text str) := by
  simp only [neutralised, cellText, Bool.and_eq_true, Bool.not_eq_true', ← startsFormula_iff,
    ← isPlainNumber_iff, Bool.not_eq_true]

/-- A field is the text of its cell, quoted if need be. -/
theorem escapeCsvField_eq : escapeCsvField = quoted ∘ cellText := by
  funext value
  cases value with
  | absent => rfl
  | text str => rw [escapeCsvField, neutralised_eq, Function.comp_apply]
  | number n => rfl

/-- **An export is faithful**: read by RFC 4180, it has the texts of its cells in their
places, and no text of a cell that is not a number begins like a formula. -/
theorem toCsv_faithful (headers : List Chars) (rows : List (List CsvValue))
    (hwidth : 2 ≤ headers.length) (hrows : ∀ row ∈ rows, row.length = headers.length) :
    (∃ body, toCsv headers rows = byteOrderMark :: body ∧ parseCsv body =
      some ((headers.map CsvValue.text :: rows).map fun row => row.map cellText)) ∧
    ∀ row ∈ headers.map CsvValue.text :: rows, ∀ str, .text str ∈ row →
      StartsFormula (cellText (.text str)) → PlainNumber (cellText (.text str)) := by
  constructor
  · refine ⟨_, rfl, ?_⟩
    have hlines : (headers.map CsvValue.text :: rows).map csvLine =
        ((headers.map CsvValue.text :: rows).map fun row => row.map cellText).map quotedLine := by
      rw [List.map_map]
      refine List.map_congr_left fun row _ => ?_
      simp only [csvLine, quotedLine, Function.comp_apply, List.map_map, escapeCsvField_eq]
    rw [parseCsv, hlines]
    refine readFrom_records (by simp) fun fields hfields => ?_
    obtain ⟨row, hrow, rfl⟩ := List.mem_map.1 hfields
    rw [List.length_map]
    rcases List.mem_cons.1 hrow with rfl | hrow
    · simpa using hwidth
    · simpa [hrows row hrow] using hwidth
  · intro row _ str _ hformula
    by_cases hneutralised : StartsFormula str ∧ ¬ PlainNumber str
    · rw [cellText, if_pos hneutralised] at hformula
      obtain ⟨c, hc, _, heq⟩ := hformula
      cases heq
      exact absurd hc (by decide)
    · rw [cellText, if_neg hneutralised] at hformula ⊢
      by_contra hplain
      exact hneutralised ⟨hformula, hplain⟩

/-- A formula and a missing value, under two headings. -/
theorem toCsv_faithful_formula : ∃ body,
    toCsv ["A".toList, "B".toList] [[.text "=SUM(\"A1\")".toList, .absent]] =
      byteOrderMark :: body ∧
    parseCsv body = some [["A".toList, "B".toList], ["'=SUM(\"A1\")".toList, []]] :=
  (toCsv_faithful ["A".toList, "B".toList] [[.text "=SUM(\"A1\")".toList, .absent]] (by decide)
    (by decide)).1

end WhatStore.Text
