import WhatStore.Text.Units

/-!
# The tokenizer of HTML

The states of the standard's tokenizer under their names, one code unit a step.
Values and character data stay as they are written: a character reference ends
nothing, so it is read afterwards. Comments, and elements whose text has rules of
its own, are not read here; on these the tokenizer gives up. The preprocessing of the
input stream, which makes a line feed of a carriage return, and the replacement of
U+0000 are left out.
-/

namespace Html

open WhatStore.Text

structure Tag where
  closing : Bool
  name : Units
  attributes : List (Units × Units)
  deriving DecidableEq

inductive Token where
  | doctype (name : Units)
  | char (u : UInt16)
  | tag (tag : Tag)
  deriving DecidableEq

inductive State where
  | data
  | rcdata (ending : Units)
  | rcdataLessThanSign (ending : Units)
  | rcdataEndTagOpen (ending : Units)
  | rcdataEndTagName (ending buffer : Units)
  | tagOpen
  | endTagOpen
  | tagName (tag : Tag)
  | selfClosingStartTag (tag : Tag)
  | beforeAttributeName (tag : Tag)
  | attributeName (tag : Tag) (name : Units)
  | afterAttributeName (tag : Tag) (name : Units)
  | beforeAttributeValue (tag : Tag) (name : Units)
  | attributeValue (quote : UInt16) (tag : Tag) (name value : Units)
  | attributeValueUnquoted (tag : Tag) (name value : Units)
  | afterAttributeValue (tag : Tag)
  | markupDeclarationOpen (buffer : Units)
  | doctype
  | beforeDoctypeName
  | doctypeName (name : Units)
  deriving DecidableEq

/-! ## Steps -/

def quotationMark : UInt16 := 0x22

def apostrophe : UInt16 := 0x27

def isSpace (u : UInt16) : Bool := u = 9 ∨ u = 10 ∨ u = 12 ∨ u = 13 ∨ u = 32

def isLetter (u : UInt16) : Bool :=
  (unit 'a' ≤ u ∧ u ≤ unit 'z') ∨ (unit 'A' ≤ u ∧ u ≤ unit 'Z')

/-- Names are in lower case, and zero is replaced in them. -/
def nameUnit (u : UInt16) : UInt16 :=
  if u = 0 then 0xFFFD else if unit 'A' ≤ u ∧ u ≤ unit 'Z' then u + 32 else u

/-- Of two attributes with one name the first counts. -/
def Tag.add (tag : Tag) (name value : Units) : Tag :=
  if name ∈ tag.attributes.map Prod.fst then tag
  else { tag with attributes := tag.attributes ++ [(name, value)] }

/-- Elements whose text is read up to their own end tag. -/
def rcdataElements : List Units := [unitsOf "title", unitsOf "textarea"]

def rawElements : List Units :=
  ["style", "xmp", "iframe", "noembed", "noframes", "script", "noscript", "plaintext"].map unitsOf

/-- A tag is emitted, and decides how the text behind it is read. -/
def Tag.emit (tag : Tag) : Option (List Token × State) :=
  if tag.closing then some ([.tag tag], .data)
  else if tag.name ∈ rcdataElements then some ([.tag tag], .rcdata tag.name)
  else if tag.name ∈ rawElements then none
  else some ([.tag tag], .data)

def dataStep (u : UInt16) : List Token × State :=
  if u = unit '<' then ([], .tagOpen) else ([.char u], .data)

def rcdataStep (ending : Units) (u : UInt16) : List Token × State :=
  if u = unit '<' then ([], .rcdataLessThanSign ending) else ([.char u], .rcdata ending)

/-- The text that has been held back is character data after all. -/
def resume (held : Units) (next : List Token × State) : List Token × State :=
  (held.map .char ++ next.1, next.2)

def beforeAttributeNameStep (tag : Tag) (u : UInt16) : Option (List Token × State) :=
  if isSpace u then some ([], .beforeAttributeName tag)
  else if u = unit '/' then some ([], .selfClosingStartTag tag)
  else if u = unit '>' then tag.emit
  else some ([], .attributeName tag [nameUnit u])

def step : State → UInt16 → Option (List Token × State)
  | .data, u => some (dataStep u)
  | .rcdata ending, u => some (rcdataStep ending u)
  | .rcdataLessThanSign ending, u =>
      if u = unit '/' then some ([], .rcdataEndTagOpen ending)
      else some (resume (unitsOf "<") (rcdataStep ending u))
  | .rcdataEndTagOpen ending, u =>
      if isLetter u then some ([], .rcdataEndTagName ending [u])
      else some (resume (unitsOf "</") (rcdataStep ending u))
  | .rcdataEndTagName ending buffer, u =>
      if buffer.map nameUnit = ending ∧ isSpace u then
        some ([], .beforeAttributeName ⟨true, ending, []⟩)
      else if buffer.map nameUnit = ending ∧ u = unit '/' then
        some ([], .selfClosingStartTag ⟨true, ending, []⟩)
      else if buffer.map nameUnit = ending ∧ u = unit '>' then Tag.emit ⟨true, ending, []⟩
      else if isLetter u then some ([], .rcdataEndTagName ending (buffer ++ [u]))
      else some (resume (unitsOf "</" ++ buffer) (rcdataStep ending u))
  | .tagOpen, u =>
      if u = unit '!' then some ([], .markupDeclarationOpen [])
      else if u = unit '/' then some ([], .endTagOpen)
      else if isLetter u then some ([], .tagName ⟨false, [nameUnit u], []⟩)
      else if u = unit '?' then none
      else some (resume (unitsOf "<") (dataStep u))
  | .endTagOpen, u =>
      if isLetter u then some ([], .tagName ⟨true, [nameUnit u], []⟩)
      else if u = unit '>' then some ([], .data)
      else none
  | .tagName tag, u =>
      if isSpace u then some ([], .beforeAttributeName tag)
      else if u = unit '/' then some ([], .selfClosingStartTag tag)
      else if u = unit '>' then tag.emit
      else some ([], .tagName { tag with name := tag.name ++ [nameUnit u] })
  | .selfClosingStartTag tag, u =>
      if u = unit '>' then tag.emit else beforeAttributeNameStep tag u
  | .beforeAttributeName tag, u => beforeAttributeNameStep tag u
  | .attributeName tag name, u =>
      if isSpace u then some ([], .afterAttributeName tag name)
      else if u = unit '/' then some ([], .selfClosingStartTag (tag.add name []))
      else if u = unit '>' then (tag.add name []).emit
      else if u = unit '=' then some ([], .beforeAttributeValue tag name)
      else some ([], .attributeName tag (name ++ [nameUnit u]))
  | .afterAttributeName tag name, u =>
      if isSpace u then some ([], .afterAttributeName tag name)
      else if u = unit '/' then some ([], .selfClosingStartTag (tag.add name []))
      else if u = unit '=' then some ([], .beforeAttributeValue tag name)
      else if u = unit '>' then (tag.add name []).emit
      else some ([], .attributeName (tag.add name []) [nameUnit u])
  | .beforeAttributeValue tag name, u =>
      if isSpace u then some ([], .beforeAttributeValue tag name)
      else if u = quotationMark ∨ u = apostrophe then some ([], .attributeValue u tag name [])
      else if u = unit '>' then (tag.add name []).emit
      else some ([], .attributeValueUnquoted tag name [u])
  | .attributeValue quote tag name value, u =>
      if u = quote then some ([], .afterAttributeValue (tag.add name value))
      else some ([], .attributeValue quote tag name (value ++ [u]))
  | .attributeValueUnquoted tag name value, u =>
      if isSpace u then some ([], .beforeAttributeName (tag.add name value))
      else if u = unit '>' then (tag.add name value).emit
      else some ([], .attributeValueUnquoted tag name (value ++ [u]))
  | .afterAttributeValue tag, u =>
      if isSpace u then some ([], .beforeAttributeName tag)
      else if u = unit '/' then some ([], .selfClosingStartTag tag)
      else if u = unit '>' then tag.emit
      else beforeAttributeNameStep tag u
  | .markupDeclarationOpen buffer, u =>
      let buffer := buffer ++ [nameUnit u]
      if buffer = unitsOf "doctype" then some ([], .doctype)
      else if buffer.isPrefixOf (unitsOf "doctype") then some ([], .markupDeclarationOpen buffer)
      else none
  | .doctype, u | .beforeDoctypeName, u =>
      if isSpace u then some ([], .beforeDoctypeName)
      else if u = unit '>' then some ([.doctype []], .data)
      else some ([], .doctypeName [nameUnit u])
  | .doctypeName name, u =>
      if isSpace u then none
      else if u = unit '>' then some ([.doctype name], .data)
      else some ([], .doctypeName (name ++ [nameUnit u]))

def run : State → Units → Option (List Token × State)
  | state, [] => some ([], state)
  | state, u :: rest => do
      let (tokens, state) ← step state u
      let (more, state) ← run state rest
      some (tokens ++ more, state)

/-- The tokens of a text that ends outside of tags. -/
def tokenize (text : Units) : Option (List Token) := do
  let (tokens, state) ← run .data text
  if state = .data then some tokens else none

end Html
