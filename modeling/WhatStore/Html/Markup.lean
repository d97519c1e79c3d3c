import WhatStore.Html.Tokenizer

/-!
# Documents written out

The canonical text of a list of tokens, and when the tokenizer reads the tokens back
from it.
-/

namespace Html

open WhatStore.Text

/-! ## Writing -/

def writeAttribute (pair : Units × Units) : Units :=
  unit ' ' :: (pair.1 ++ unit '=' :: quotationMark :: (pair.2 ++ [quotationMark]))

def Tag.write (tag : Tag) : Units :=
  unit '<' :: ((if tag.closing then [unit '/'] else []) ++ tag.name ++
    tag.attributes.flatMap writeAttribute ++ [unit '>'])

def Token.write : Token → Units
  | .doctype name => unitsOf "<!doctype " ++ name ++ [unit '>']
  | .char u => [u]
  | .tag t => t.write

def write (document : List Token) : Units := document.flatMap Token.write

def text (value : Units) : List Token := value.map .char

@[simp] theorem write_nil : write [] = [] := rfl

@[simp] theorem write_cons (token : Token) (document : List Token) :
    write (token :: document) = token.write ++ write document := rfl

@[simp] theorem write_append (document more : List Token) :
    write (document ++ more) = write document ++ write more :=
  List.flatMap_append

@[simp] theorem write_text (value : Units) : write (text value) = value := by
  induction value with
  | nil => rfl
  | cons u value ih => simpa [text, write, Token.write] using ih

/-! ## What is read back -/

/-- Small letters, digits and the like: what stands in a name and ends none. -/
def IsNameUnit (u : UInt16) : Prop :=
  isSpace u = false ∧ u ≠ unit '/' ∧ u ≠ unit '>' ∧ u ≠ unit '=' ∧ nameUnit u = u

instance (u : UInt16) : Decidable (IsNameUnit u) :=
  inferInstanceAs (Decidable (_ ∧ _ ∧ _ ∧ _ ∧ _))

def IsName (name : Units) : Prop :=
  (∃ u ∈ name.head?, isLetter u = true) ∧ ∀ u ∈ name, IsNameUnit u

instance (name : Units) : Decidable (IsName name) :=
  @instDecidableAnd _ _ (decidable_of_iff (name.head?.any isLetter = true)
    (by simp [Option.any_eq_true])) (decidableUnits IsNameUnit name)

structure Tag.Clean (tag : Tag) : Prop where
  name : IsName tag.name
  attributes : ∀ pair ∈ tag.attributes, IsName pair.1 ∧ quotationMark ∉ pair.2
  distinct : (tag.attributes.map Prod.fst).Nodup

/-- The documents that the tokenizer reads back, by the state they are met in. -/
inductive Clean : State → List Token → Prop
  | done : Clean .data []
  | doctype {name : Units} {document : List Token} : IsName name → Clean .data document →
      Clean .data (.doctype name :: document)
  | char {u : UInt16} {document : List Token} : u ≠ unit '<' → Clean .data document →
      Clean .data (.char u :: document)
  | tag {t : Tag} {state : State} {document : List Token} : t.Clean →
      t.emit = some ([.tag t], state) → Clean state document →
      Clean .data (.tag t :: document)
  | charWithin {ending : Units} {u : UInt16} {document : List Token} : u ≠ unit '<' →
      Clean (.rcdata ending) document → Clean (.rcdata ending) (.char u :: document)
  | endOf {ending : Units} {document : List Token} : IsName ending →
      (∀ u ∈ ending, isLetter u = true) → Clean .data document →
      Clean (.rcdata ending) (.tag ⟨true, ending, []⟩ :: document)

theorem Clean.text {value : Units} {document : List Token} (hvalue : unit '<' ∉ value)
    (h : Clean .data document) : Clean .data (Html.text value ++ document) := by
  induction value with
  | nil => exact h
  | cons u value ih =>
      rw [List.mem_cons, not_or] at hvalue
      exact .char (fun heq => hvalue.1 heq.symm) (ih hvalue.2)

theorem Clean.textWithin {ending value : Units} {document : List Token} (hvalue : unit '<' ∉ value)
    (h : Clean (.rcdata ending) document) :
    Clean (.rcdata ending) (Html.text value ++ document) := by
  induction value with
  | nil => exact h
  | cons u value ih =>
      rw [List.mem_cons, not_or] at hvalue
      exact .charWithin (fun heq => hvalue.1 heq.symm) (ih hvalue.2)

/-! ## Reading -/

theorem run_append (state : State) (xs ys : Units) :
    run state (xs ++ ys) = (run state xs).bind fun first =>
      (run first.2 ys).map fun second => (first.1 ++ second.1, second.2) := by
  induction xs generalizing state with
  | nil => cases h : run state ys <;> simp [run, h]
  | cons u xs ih =>
      rw [List.cons_append, run, run]
      cases hstep : step state u with
      | none => rfl
      | some first =>
          simp only [Option.bind_eq_bind, Option.bind_some, ih]
          cases hrun : run first.2 xs with
          | none => rfl
          | some second => cases hrest : run second.2 ys <;> simp [hrest]

theorem run_trans {state state' state'' : State} {xs ys : Units} {tokens more : List Token}
    (hxs : run state xs = some (tokens, state')) (hys : run state' ys = some (more, state'')) :
    run state (xs ++ ys) = some (tokens ++ more, state'') := by
  simp [run_append, hxs, hys]

theorem run_cons {state state' state'' : State} {u : UInt16} {rest : Units}
    {tokens more : List Token} (hu : step state u = some (tokens, state'))
    (hrest : run state' rest = some (more, state'')) :
    run state (u :: rest) = some (tokens ++ more, state'') := by
  simp [run, hu, hrest]

theorem run_singleton {state state' : State} {u : UInt16} {tokens : List Token}
    (hu : step state u = some (tokens, state')) : run state [u] = some (tokens, state') := by
  simp [run, hu]

section

variable {tag : Tag} {name value : Units}

theorem run_tagName (h : ∀ u ∈ name, IsNameUnit u) :
    run (.tagName tag) name = some ([], .tagName { tag with name := tag.name ++ name }) := by
  induction name generalizing tag with
  | nil => simp [run]
  | cons u name ih =>
      obtain ⟨hspace, hslash, hgt, -, hu⟩ := h u List.mem_cons_self
      have hstep : step (.tagName tag) u = some ([], .tagName { tag with name := tag.name ++ [u] }) := by
        simp [step, hspace, hslash, hgt, hu]
      have hrest := run_cons hstep (ih fun v hv => h v (List.mem_cons_of_mem _ hv))
      simpa using hrest

theorem run_attributeName {start : Units} (h : ∀ u ∈ name, IsNameUnit u) :
    run (.attributeName tag start) name = some ([], .attributeName tag (start ++ name)) := by
  induction name generalizing start with
  | nil => simp [run]
  | cons u name ih =>
      obtain ⟨hspace, hslash, hgt, heq, hu⟩ := h u List.mem_cons_self
      have hstep : step (.attributeName tag start) u = some ([], .attributeName tag (start ++ [u])) := by
        simp [step, hspace, hslash, hgt, heq, hu]
      have hrest := run_cons hstep (ih fun v hv => h v (List.mem_cons_of_mem _ hv))
      simpa using hrest

theorem run_attributeValue {quote : UInt16} {start : Units} (h : quote ∉ value) :
    run (.attributeValue quote tag name start) value =
      some ([], .attributeValue quote tag name (start ++ value)) := by
  induction value generalizing start with
  | nil => simp [run]
  | cons u value ih =>
      rw [List.mem_cons, not_or] at h
      have hstep : step (.attributeValue quote tag name start) u =
          some ([], .attributeValue quote tag name (start ++ [u])) := by
        simp [step, Ne.symm h.1]
      have hrest := run_cons hstep (ih h.2)
      simpa using hrest

/-- States behind a name or a value, where an attribute or the end of the tag is next. -/
structure State.Between (state : State) (tag : Tag) : Prop where
  space : step state (unit ' ') = some ([], .beforeAttributeName tag)
  ending : step state (unit '>') = tag.emit

theorem between_tagName : (State.tagName tag).Between tag := ⟨rfl, rfl⟩

theorem between_afterAttributeValue : (State.afterAttributeValue tag).Between tag := ⟨rfl, rfl⟩

theorem run_writeAttribute {state : State} (hstate : state.Between tag) (hname : IsName name)
    (hvalue : quotationMark ∉ value) (hnew : name ∉ tag.attributes.map Prod.fst) :
    run state (writeAttribute (name, value)) =
      some ([], .afterAttributeValue { tag with attributes := tag.attributes ++ [(name, value)] }) := by
  obtain ⟨⟨u, hu, -⟩, hunits⟩ := hname
  obtain ⟨rest, rfl⟩ := List.head?_eq_some_iff.1 hu
  obtain ⟨hspace, hslash, hgt, -, hsame⟩ := hunits u List.mem_cons_self
  have hfirst : step (.beforeAttributeName tag) u = some ([], .attributeName tag [u]) := by
    simp [step, beforeAttributeNameStep, hspace, hslash, hgt, hsame]
  have hname : run (.attributeName tag [u]) rest = some ([], .attributeName tag ([u] ++ rest)) :=
    run_attributeName fun v hv => hunits v (List.mem_cons_of_mem _ hv)
  have hequals : step (.attributeName tag ([u] ++ rest)) (unit '=') =
      some ([], .beforeAttributeValue tag (u :: rest)) := rfl
  have hquote : step (.beforeAttributeValue tag (u :: rest)) quotationMark =
      some ([], .attributeValue quotationMark tag (u :: rest) []) := rfl
  have hread : run (.attributeValue quotationMark tag (u :: rest) []) value =
      some ([], .attributeValue quotationMark tag (u :: rest) ([] ++ value)) :=
    run_attributeValue hvalue
  have hend : step (.attributeValue quotationMark tag (u :: rest) ([] ++ value)) quotationMark =
      some ([], .afterAttributeValue
        { tag with attributes := tag.attributes ++ [(u :: rest, value)] }) := by
    simp [step, Tag.add, hnew]
  exact run_cons hstate.space (run_cons hfirst (run_trans hname (run_cons hequals
    (run_cons hquote (run_trans hread (run_singleton hend))))))

/-- Behind the name, the attributes are read one by one, up to the end of the tag. -/
theorem run_attributes {pairs : List (Units × Units)} {state : State} (hstate : state.Between tag)
    (h : ∀ pair ∈ pairs, IsName pair.1 ∧ quotationMark ∉ pair.2)
    (hdistinct : ((tag.attributes ++ pairs).map Prod.fst).Nodup) {result : List Token × State}
    (hemit : Tag.emit { tag with attributes := tag.attributes ++ pairs } = some result) :
    run state (pairs.flatMap writeAttribute ++ [unit '>']) = some result := by
  induction pairs generalizing tag state with
  | nil =>
      rw [List.append_nil] at hemit
      exact run_singleton (hstate.ending.trans hemit)
  | cons pair pairs ih =>
      obtain ⟨name, value⟩ := pair
      obtain ⟨hname, hvalue⟩ := h _ List.mem_cons_self
      have hnew : name ∉ tag.attributes.map Prod.fst := by
        rw [List.map_append, List.map_cons, List.nodup_append] at hdistinct
        intro hmem
        exact hdistinct.2.2 name hmem name List.mem_cons_self rfl
      have hrest := ih (@between_afterAttributeValue
        { tag with attributes := tag.attributes ++ [(name, value)] }) (fun pair hpair => h pair (List.mem_cons_of_mem _ hpair))
        (by simpa using hdistinct) (by simpa using hemit)
      rw [List.flatMap_cons, List.append_assoc]
      exact run_trans (run_writeAttribute hstate hname hvalue hnew) hrest

theorem IsName.split (h : IsName name) : ∃ u rest, name = u :: rest ∧ isLetter u = true ∧
    IsNameUnit u ∧ ∀ v ∈ rest, IsNameUnit v := by
  obtain ⟨⟨u, hu, hletter⟩, hunits⟩ := h
  obtain ⟨rest, rfl⟩ := List.head?_eq_some_iff.1 hu
  exact ⟨u, rest, rfl, hletter, hunits u List.mem_cons_self,
    fun v hv => hunits v (List.mem_cons_of_mem _ hv)⟩

theorem isLetter_ne {u v : UInt16} (h : isLetter u = true) (hv : isLetter v = false) : u ≠ v := by
  rintro rfl
  rw [h] at hv
  cases hv

theorem run_tag (h : tag.Clean) {state : State} (hemit : tag.emit = some ([.tag tag], state)) :
    run .data tag.write = some ([.tag tag], state) := by
  obtain ⟨u, rest, hname, hletter, ⟨-, -, -, -, hsame⟩, hunits⟩ := h.name.split
  have hne : ∀ v, isLetter v = false → u ≠ v := fun v => isLetter_ne hletter
  have hopen : step .data (unit '<') = some ([], .tagOpen) := rfl
  have hslash : step .tagOpen (unit '/') = some ([], .endTagOpen) := rfl
  have hstart : step .tagOpen u = some ([], .tagName ⟨false, [u], []⟩) := by
    simp [step, hne (unit '!') (by decide), hne (unit '/') (by decide), hletter, hsame]
  have hend : step .endTagOpen u = some ([], .tagName ⟨true, [u], []⟩) := by
    simp [step, hletter, hsame]
  have hrest : run (.tagName ⟨tag.closing, [u], []⟩)
      (rest ++ (tag.attributes.flatMap writeAttribute ++ [unit '>'])) = some ([.tag tag], state) := by
    have hattributes := run_attributes (@between_tagName ⟨tag.closing, tag.name, []⟩)
      h.attributes h.distinct hemit
    have hread : run (.tagName ⟨tag.closing, [u], []⟩) rest =
        some ([], .tagName ⟨tag.closing, [u] ++ rest, []⟩) := run_tagName hunits
    rw [show [u] ++ rest = tag.name from hname.symm] at hread
    exact run_trans hread hattributes
  rw [Tag.write, hname]
  cases hclosing : tag.closing with
  | true =>
      rw [hclosing] at hrest
      simpa using run_cons hopen (run_cons hslash (run_cons hend hrest))
  | false =>
      rw [hclosing] at hrest
      simpa using run_cons hopen (run_cons hstart hrest)

theorem run_doctypeName {start : Units} (h : ∀ u ∈ name, IsNameUnit u) :
    run (.doctypeName start) name = some ([], .doctypeName (start ++ name)) := by
  induction name generalizing start with
  | nil => simp [run]
  | cons u name ih =>
      obtain ⟨hspace, -, hgt, -, hu⟩ := h u List.mem_cons_self
      have hstep : step (.doctypeName start) u = some ([], .doctypeName (start ++ [u])) := by
        simp [step, hspace, hgt, hu]
      have hrest := run_cons hstep (ih fun v hv => h v (List.mem_cons_of_mem _ hv))
      simpa using hrest

theorem run_doctype (h : IsName name) :
    run .data (Token.write (.doctype name)) = some ([.doctype name], .data) := by
  obtain ⟨u, rest, rfl, hletter, ⟨hspace, -, hgt, -, hsame⟩, hunits⟩ := h.split
  have hkeyword : run .data (unitsOf "<!doctype ") = some ([], .beforeDoctypeName) := by
    decide +kernel
  have hfirst : step .beforeDoctypeName u = some ([], .doctypeName [u]) := by
    simp [step, hspace, hgt, hsame]
  have hrest : run (.doctypeName [u]) rest = some ([], .doctypeName ([u] ++ rest)) :=
    run_doctypeName hunits
  have hend : step (.doctypeName ([u] ++ rest)) (unit '>') = some ([.doctype (u :: rest)], .data) := rfl
  rw [Token.write, List.append_assoc]
  exact run_trans hkeyword (run_cons hfirst (run_trans hrest (run_singleton hend)))

theorem run_rcdataEndTagName {ending start : Units} (hletters : ∀ u ∈ name, isLetter u = true)
    (h : ∀ u ∈ name, IsNameUnit u) :
    run (.rcdataEndTagName ending start) name =
      some ([], .rcdataEndTagName ending (start ++ name)) := by
  induction name generalizing start with
  | nil => simp [run]
  | cons u name ih =>
      obtain ⟨hspace, hslash, hgt, -, -⟩ := h u List.mem_cons_self
      have hletter := hletters u List.mem_cons_self
      have hstep : step (.rcdataEndTagName ending start) u =
          some ([], .rcdataEndTagName ending (start ++ [u])) := by
        simp [step, hspace, hslash, hgt, hletter]
      have hrest := run_cons hstep (ih (fun v hv => hletters v (List.mem_cons_of_mem _ hv))
        fun v hv => h v (List.mem_cons_of_mem _ hv))
      simpa using hrest

theorem run_endOf (h : IsName name) (hletters : ∀ u ∈ name, isLetter u = true) :
    run (.rcdata name) (Tag.write ⟨true, name, []⟩) = some ([.tag ⟨true, name, []⟩], .data) := by
  obtain ⟨u, rest, rfl, hletter, hu, hunits⟩ := h.split
  have hopen : step (.rcdata (u :: rest)) (unit '<') = some ([], .rcdataLessThanSign (u :: rest)) := rfl
  have hslash : step (.rcdataLessThanSign (u :: rest)) (unit '/') =
      some ([], .rcdataEndTagOpen (u :: rest)) := rfl
  have hfirst : step (.rcdataEndTagOpen (u :: rest)) u =
      some ([], .rcdataEndTagName (u :: rest) [u]) := by
    simp [step, hletter]
  have hrest : run (.rcdataEndTagName (u :: rest) [u]) rest =
      some ([], .rcdataEndTagName (u :: rest) ([u] ++ rest)) :=
    run_rcdataEndTagName (fun v hv => hletters v (List.mem_cons_of_mem _ hv)) hunits
  have hsame : (u :: rest).map nameUnit = u :: rest := by
    rw [List.map_congr_left fun v hv => (h.2 v hv).2.2.2.2, List.map_id']
  have hend : step (.rcdataEndTagName (u :: rest) (u :: rest)) (unit '>') =
      some ([.tag ⟨true, u :: rest, []⟩], .data) := by
    have hspace : isSpace (unit '>') = false := by decide
    have hslash : unit '>' ≠ unit '/' := by decide
    simp only [step, hsame, hspace, hslash, Bool.false_eq_true, and_false, if_false, and_self, if_true]
    rfl
  simpa [Tag.write] using
    run_cons hopen (run_cons hslash (run_cons hfirst (run_trans hrest (run_singleton hend))))

end

/-! ## Round trip -/

theorem Clean.run_write {state : State} {document : List Token} (h : Clean state document) :
    run state (write document) = some (document, .data) := by
  induction h with
  | done => rfl
  | doctype hname _ ih => exact run_trans (run_doctype hname) ih
  | @char u document hu _ ih =>
      have hstep : step .data u = some ([.char u], .data) := by
        simp [step, dataStep, hu]
      exact run_cons hstep ih
  | tag hclean hemit _ ih => exact run_trans (run_tag hclean hemit) ih
  | @charWithin ending u document hu _ ih =>
      have hstep : step (.rcdata ending) u = some ([.char u], .rcdata ending) := by
        simp [step, rcdataStep, hu]
      exact run_cons hstep ih
  | endOf hname hletters _ ih => exact run_trans (run_endOf hname hletters) ih

/-- The tokenizer reads a clean document back from its text. -/
theorem tokenize_write {document : List Token} (h : Clean .data document) :
    tokenize (write document) = some document := by
  rw [tokenize, h.run_write]
  rfl

/-! ## Parts of documents -/

def Closed (part : List Token) : Prop :=
  ∀ rest, Clean .data rest → Clean .data (part ++ rest)

theorem Closed.clean {document : List Token} (h : Closed document) : Clean .data document := by
  simpa using h [] .done

theorem Closed.nil : Closed [] := fun _ h => h

theorem Closed.append {part more : List Token} (h : Closed part) (hmore : Closed more) :
    Closed (part ++ more) := by
  intro rest hrest
  rw [List.append_assoc]
  exact h _ (hmore _ hrest)

theorem Closed.text {value : Units} (h : unit '<' ∉ value) : Closed (Html.text value) :=
  fun _ hrest => hrest.text h

theorem Closed.tag {tag : Tag} (h : tag.Clean) (hemit : tag.emit = some ([.tag tag], .data)) :
    Closed [.tag tag] :=
  fun _ hrest => .tag h hemit hrest

theorem Closed.doctype {name : Units} (h : IsName name) : Closed [.doctype name] :=
  fun _ hrest => .doctype h hrest

def startTag (name : String) (pairs : List (String × Units)) : Token :=
  .tag ⟨false, unitsOf name, pairs.map fun pair => (unitsOf pair.1, pair.2)⟩

def endTag (name : String) : Token := .tag ⟨true, unitsOf name, []⟩

def element (name : String) (pairs : List (String × Units)) (value : Units) : List Token :=
  startTag name pairs :: (text value ++ [endTag name])

def joinLines (lines : List (List Token)) : List Token := (text [10]).intercalate lines

@[simp] theorem joinLines_nil : joinLines [] = [] := rfl

@[simp] theorem joinLines_singleton (line : List Token) : joinLines [line] = line := by
  simp [joinLines]

theorem joinLines_cons_cons (line line' : List Token) (lines : List (List Token)) :
    joinLines (line :: line' :: lines) = line ++ (text [10] ++ joinLines (line' :: lines)) := by
  simp [joinLines]

theorem write_joinLines (lines : List (List Token)) :
    write (joinLines lines) = ([10] : Units).intercalate (lines.map write) := by
  induction lines with
  | nil => rfl
  | cons line lines ih =>
      cases lines with
      | nil => simp
      | cons line' lines =>
          rw [joinLines_cons_cons, write_append, write_append, write_text, ih]
          simp

theorem closed_joinLines {lines : List (List Token)} (h : ∀ line ∈ lines, Closed line) :
    Closed (joinLines lines) := by
  induction lines with
  | nil => exact .nil
  | cons line lines ih =>
      have hline := h line List.mem_cons_self
      have hrest := ih fun line' hline' => h line' (List.mem_cons_of_mem _ hline')
      cases lines with
      | nil => simpa using hline
      | cons line' lines =>
          rw [joinLines_cons_cons]
          exact hline.append (.append (.text (by decide)) hrest)

theorem closed_startTag {name : String} {pairs : List (String × Units)} (hname : IsName (unitsOf name))
    (hplain : unitsOf name ∉ rcdataElements ++ rawElements)
    (hkeys : ∀ pair ∈ pairs, IsName (unitsOf pair.1)) (hdistinct : (pairs.map (unitsOf ·.1)).Nodup)
    (hvalues : ∀ pair ∈ pairs, quotationMark ∉ pair.2) : Closed [startTag name pairs] := by
  rw [List.mem_append, not_or] at hplain
  apply Closed.tag
  · constructor
    · exact hname
    · intro pair hpair
      obtain ⟨pair', hpair', rfl⟩ := List.mem_map.1 hpair
      exact ⟨hkeys pair' hpair', hvalues pair' hpair'⟩
    · simpa [List.map_map, Function.comp_def] using hdistinct
  · simp [Tag.emit, hplain.1, hplain.2]

theorem closed_endTag {name : String} (hname : IsName (unitsOf name)) : Closed [endTag name] :=
  .tag ⟨hname, nofun, List.nodup_nil⟩ rfl

theorem Closed.rcdata {name : String} (h : IsName (unitsOf name))
    (hletters : ∀ u ∈ unitsOf name, isLetter u = true)
    (hemit : Tag.emit ⟨false, unitsOf name, []⟩ = some ([startTag name []], .rcdata (unitsOf name)))
    {value : Units} (hvalue : unit '<' ∉ value) : Closed (element name [] value) := by
  intro rest hrest
  have hclean : Tag.Clean ⟨false, unitsOf name, []⟩ := ⟨h, nofun, List.nodup_nil⟩
  have hend := Clean.endOf h hletters hrest
  have hwithin := hend.textWithin hvalue
  rw [element, List.cons_append, List.append_assoc]
  exact .tag hclean hemit hwithin

theorem Closed.element {name : String} {pairs : List (String × Units)} (h : Closed [startTag name pairs])
    {value : Units} (hvalue : unit '<' ∉ value) (hend : Closed [endTag name]) :
    Closed (element name pairs value) :=
  h.append (.append (.text hvalue) hend)

end Html
