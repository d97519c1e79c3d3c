import WhatStore.Html.Markup

/-!
# Character references

The references that stand for the five characters with a meaning of their own, and
what a text or a value says once they are read.
-/

namespace Html

open WhatStore.Text

/-- The five characters, with what follows the ampersand in their references. -/
def references : List (UInt16 × Units) :=
  [(unit '&', unitsOf "amp;"), (unit '<', unitsOf "lt;"), (unit '>', unitsOf "gt;"),
    (quotationMark, unitsOf "quot;"), (apostrophe, unitsOf "#39;")]

/-- The reference of a character that has one, else the character. -/
def escapeUnit (u : UInt16) : Units :=
  match references.lookup u with
  | some name => unit '&' :: name
  | none => [u]

def escape (value : Units) : Units := value.flatMap escapeUnit

/-- The text behind the units that a reference has taken. -/
def unescapeFrom : ℕ → Units → Units
  | _, [] => []
  | taken + 1, _ :: rest => unescapeFrom taken rest
  | 0, u :: rest =>
      match references.find? fun r => u = unit '&' && r.2.isPrefixOf rest with
      | some r => r.1 :: unescapeFrom r.2.length rest
      | none => u :: unescapeFrom 0 rest

/-- Any other ampersand stands for itself. -/
def unescape (value : Units) : Units := unescapeFrom 0 value

theorem unescapeFrom_length (name rest : Units) :
    unescapeFrom name.length (name ++ rest) = unescapeFrom 0 rest := by
  induction name with
  | nil => rfl
  | cons u name ih => exact ih

/-- No reference starts another, so each is read as what it stands for. -/
theorem unescapeFrom_reference {u : UInt16} {name : Units} (h : (u, name) ∈ references)
    (rest : Units) : unescapeFrom 0 (unit '&' :: (name ++ rest)) = u :: unescapeFrom 0 rest := by
  have hfind : (references.find? fun r => unit '&' = unit '&' && r.2.isPrefixOf (name ++ rest)) =
      some (u, name) := by
    simp only [references, List.mem_cons, Prod.mk.injEq, List.not_mem_nil, or_false] at h
    rcases h with ⟨rfl, rfl⟩ | ⟨rfl, rfl⟩ | ⟨rfl, rfl⟩ | ⟨rfl, rfl⟩ | ⟨rfl, rfl⟩ <;> rfl
  rw [unescapeFrom, hfind]
  exact congrArg (u :: ·) (unescapeFrom_length name rest)

theorem unescapeFrom_escapeUnit (u : UInt16) (rest : Units) :
    unescapeFrom 0 (escapeUnit u ++ rest) = u :: unescapeFrom 0 rest := by
  rw [escapeUnit]
  cases hlookup : references.lookup u with
  | some name =>
      have hmem : (u, name) ∈ references := by
        rw [List.lookup_eq_some_iff] at hlookup
        obtain ⟨before, after, heq, -⟩ := hlookup
        simp [heq]
      exact unescapeFrom_reference hmem rest
  | none =>
      have hne : u ≠ unit '&' := by
        rintro rfl
        cases hlookup
      have hfind : (references.find? fun r => u = unit '&' && r.2.isPrefixOf rest) = none := by
        simp [hne]
      rw [List.singleton_append, unescapeFrom, hfind]

theorem unescape_escape (value : Units) : unescape (escape value) = value := by
  induction value with
  | nil => rfl
  | cons u value ih =>
      rw [unescape, escape, List.flatMap_cons, unescapeFrom_escapeUnit]
      exact congrArg (u :: ·) ih

/-- What is escaped ends neither a text nor a value in quotes. -/
theorem notMem_escape {u : UInt16} (hu : u = unit '<' ∨ u = unit '>' ∨ u = quotationMark ∨
    u = apostrophe) (value : Units) : u ∉ escape value := by
  rw [escape, List.mem_flatMap]
  rintro ⟨v, -, hmem⟩
  rw [escapeUnit] at hmem
  cases hlookup : references.lookup v with
  | some name =>
      have hname : name ∈ references.map Prod.snd := by
        rw [List.lookup_eq_some_iff] at hlookup
        obtain ⟨before, after, heq, -⟩ := hlookup
        simp [heq]
      have hclean : ∀ name ∈ references.map Prod.snd, ∀ w ∈ unit '&' :: name,
          w ≠ unit '<' ∧ w ≠ unit '>' ∧ w ≠ quotationMark ∧ w ≠ apostrophe := by
        decide +kernel
      rw [hlookup] at hmem
      have hw := hclean name hname u hmem
      simp_all
  | none =>
      rw [hlookup, List.mem_singleton] at hmem
      rw [← hmem] at hlookup
      rcases hu with rfl | rfl | rfl | rfl <;> cases hlookup

/-! ## Tokens with their references read -/

def Tag.decode (tag : Tag) : Tag :=
  { tag with attributes := tag.attributes.map fun pair => (pair.1, unescape pair.2) }

/-- The character data up to the next tag is read as one text. -/
def decodeFrom (held : Units) : List Token → List Token
  | [] => text (unescape held)
  | .char u :: rest => decodeFrom (held ++ [u]) rest
  | .tag t :: rest => text (unescape held) ++ .tag t.decode :: decodeFrom [] rest
  | .doctype name :: rest => text (unescape held) ++ .doctype name :: decodeFrom [] rest

def decode (document : List Token) : List Token := decodeFrom [] document

theorem decodeFrom_text (held value : Units) (rest : List Token) :
    decodeFrom held (text value ++ rest) = decodeFrom (held ++ value) rest := by
  induction value generalizing held with
  | nil => simp [text]
  | cons u value ih =>
      have hrest := ih (held ++ [u])
      rw [List.append_assoc] at hrest
      exact hrest

theorem decodeFrom_append {value : Units} (h : unit '&' ∉ value) (held : Units)
    (document : List Token) :
    decodeFrom (value ++ held) document = text value ++ decodeFrom held document := by
  have hunescape : ∀ held, unescape (value ++ held) = value ++ unescape held := by
    intro held
    induction value with
    | nil => rfl
    | cons u value ih =>
        rw [List.mem_cons, not_or] at h
        have hfind : (references.find? fun r => u = unit '&' && r.2.isPrefixOf (value ++ held)) = none := by
          simp [Ne.symm h.1]
        rw [List.cons_append, unescape, unescapeFrom, hfind]
        exact congrArg (u :: ·) (ih h.2)
  induction document generalizing held with
  | nil => simp [decodeFrom, hunescape, text]
  | cons token document ih =>
      cases token with
      | char u => simpa [decodeFrom] using ih (held ++ [u])
      | tag t => simp [decodeFrom, hunescape, text]
      | doctype name => simp [decodeFrom, hunescape, text]

def Decodes (part meaning : List Token) : Prop :=
  ∀ rest, decode (part ++ rest) = meaning ++ decode rest

theorem Decodes.decode_eq {document meaning : List Token} (h : Decodes document meaning) :
    decode document = meaning := by
  simpa [decode, decodeFrom, unescape, unescapeFrom, text] using h []

theorem Decodes.nil : Decodes [] [] := fun _ => rfl

theorem Decodes.append {part more meaning meaning' : List Token} (h : Decodes part meaning)
    (hmore : Decodes more meaning') : Decodes (part ++ more) (meaning ++ meaning') := by
  intro rest
  rw [List.append_assoc, h, hmore, List.append_assoc]

theorem Decodes.plain {value : Units} (h : unit '&' ∉ value) : Decodes (text value) (text value) := by
  intro rest
  rw [decode, decodeFrom_text, List.nil_append, ← List.append_nil value, decodeFrom_append h]
  simp [decode]

theorem Decodes.tag (t : Tag) : Decodes [.tag t] [.tag t.decode] := fun _ => rfl

theorem Decodes.doctype (name : Units) : Decodes [.doctype name] [.doctype name] := fun _ => rfl

theorem Decodes.escaped (value : Units) (t : Tag) :
    Decodes (text (escape value) ++ [.tag t]) (text value ++ [.tag t.decode]) := by
  intro rest
  rw [List.append_assoc, decode, decodeFrom_text, List.nil_append, List.singleton_append,
    decodeFrom, unescape_escape]
  simp [decode]

theorem Decodes.joinLines {lines meanings : List (List Token)}
    (h : List.Forall₂ Decodes lines meanings) : Decodes (joinLines lines) (joinLines meanings) := by
  induction h with
  | nil => exact .nil
  | cons hline hlines ih =>
      cases hlines with
      | nil => simpa using hline
      | cons hline' hlines =>
          rw [joinLines_cons_cons, joinLines_cons_cons]
          exact hline.append (.append (.plain (by decide)) ih)

/-! ## Outlines -/

structure Outline where
  closing : Bool
  name : Units
  attributes : List Units
  deriving DecidableEq

def Token.outline : Token → Option Outline
  | .tag t => some ⟨t.closing, t.name, t.attributes.map Prod.fst⟩
  | _ => none

def outline (document : List Token) : List Outline := document.filterMap Token.outline

@[simp] theorem outline_doctype (name : Units) : (Token.doctype name).outline = none := rfl

@[simp] theorem outline_nil : outline [] = [] := rfl

theorem outline_cons (token : Token) (document : List Token) :
    outline (token :: document) = token.outline.toList ++ outline document := by
  cases h : token.outline <;> simp [outline, h]

@[simp] theorem outline_append (document more : List Token) :
    outline (document ++ more) = outline document ++ outline more :=
  List.filterMap_append

@[simp] theorem outline_text (value : Units) : outline (text value) = [] := by
  induction value with
  | nil => rfl
  | cons u value ih => exact ih

theorem outline_joinLines (lines : List (List Token)) :
    outline (joinLines lines) = lines.flatMap outline := by
  induction lines with
  | nil => rfl
  | cons line lines ih =>
      cases lines with
      | nil => simp
      | cons line' lines => simp [joinLines_cons_cons, ih]

end Html
