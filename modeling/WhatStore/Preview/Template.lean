import WhatStore.Preview.Service

/-!
# The template of a preview

The page as tokens: the tags of the template with the texts of the store between
and in them. What the tokenizer reads of a preview are these tokens.
-/

namespace WhatStore.Preview

open Text Html

/-! ## The template -/

def metaTag (kind key : String) (value : Units) : List Token :=
  [startTag "meta" [(kind, unitsOf key), ("content", value)]]

section

-- how a text is written
variable (f : Units → Units) (page : PageMeta)

def tagLines : List (List Token) :=
  [element "title" [] (f page.title),
    [startTag "link" [("rel", unitsOf "canonical"), ("href", f page.canonical)]],
    metaTag "property" "og:type" page.type.toUnits,
    metaTag "property" "og:title" (f page.title),
    metaTag "property" "og:url" (f page.canonical),
    metaTag "property" "og:site_name" (f page.siteName),
    metaTag "name" "twitter:card"
      (if (truthy page.image).isSome then unitsOf "summary_large_image" else unitsOf "summary"),
    metaTag "name" "twitter:title" (f page.title)] ++
  (truthy page.description).elim [] (fun description =>
    [metaTag "name" "description" (f description),
      metaTag "property" "og:description" (f description),
      metaTag "name" "twitter:description" (f description)]) ++
  (truthy page.image).elim [] (fun image =>
    [metaTag "property" "og:image" (f image),
      metaTag "name" "twitter:image" (f image)]) ++
  page.price.elim [] (fun price =>
    [metaTag "property" "product:price:amount" (f price.amount),
      metaTag "property" "product:price:currency" (f price.currency)])

def headLines : List (List Token) :=
  [[.doctype (unitsOf "html")], [startTag "html" [("lang", unitsOf "es")]], [startTag "head" []],
    [startTag "meta" [("charset", unitsOf "utf-8")]],
    metaTag "name" "viewport" (unitsOf "width=device-width, initial-scale=1.0")]

def bodyLines : List (List Token) :=
  [[endTag "head"], [startTag "body" []], element "h1" [] (f page.title),
    (truthy page.description).elim [] fun description => element "p" [] (f description),
    startTag "p" [] :: (element "a" [("href", f page.canonical)] (f page.siteName) ++ [endTag "p"]),
    [endTag "body"], [endTag "html"]]

def document : List Token := joinLines (headLines ++ tagLines f page ++ bodyLines f page)

end

/-! ## Escapes -/

theorem escapeHtml_append (value value' : Units) :
    escapeHtml (value ++ value') = escapeHtml value ++ escapeHtml value' := by
  simp [escapeHtml, replaceUnit]

theorem escapeHtml_singleton (u : UInt16) : escapeHtml [u] = escapeUnit u := by
  by_cases hspecial : u ∈ references.map Prod.fst
  · have hall : ∀ u ∈ references.map Prod.fst, escapeHtml [u] = escapeUnit u := by
      decide +kernel
    exact hall u hspecial
  · have hlookup : references.lookup u = none := by
      rw [List.lookup_eq_none_iff]
      intro pair hpair
      rw [bne_iff_ne]
      rintro rfl
      exact hspecial (List.mem_map_of_mem hpair)
    simp only [references, List.map_cons, List.map_nil, List.mem_cons, List.not_mem_nil, or_false,
      not_or] at hspecial
    simp [escapeUnit, hlookup, escapeHtml, replaceUnit, hspecial]

/-- Ampersands go first, so no reference is escaped again. -/
theorem escapeHtml_eq (value : Units) : escapeHtml value = escape value := by
  induction value with
  | nil => rfl
  | cons u value ih =>
      rw [← List.singleton_append, escapeHtml_append, escapeHtml_singleton, ih]
      rfl

/-! ## The text of the template -/

theorem write_metaTag (kind key : String) (value : Units) :
    write (metaTag kind key value) =
      (unitsOf "<meta " ++ unitsOf kind ++ unitsOf "=\"" ++ unitsOf key ++ unitsOf "\" content=\"") ++ value ++
        unitsOf "\">" := by
  simp [write, metaTag, startTag, Token.write, Tag.write, writeAttribute]
  rfl

theorem write_canonical (value : Units) :
    write [startTag "link" [("rel", unitsOf "canonical"), ("href", value)]] =
      unitsOf "<link rel=\"canonical\" href=\"" ++ value ++ unitsOf "\">" := by
  simp [write, startTag, Token.write, Tag.write, writeAttribute]
  rfl

theorem write_element (name : String) (value : Units) :
    write (element name [] value) =
      (unitsOf "<" ++ unitsOf name ++ unitsOf ">") ++ value ++ (unitsOf "</" ++ unitsOf name ++ unitsOf ">") := by
  have htext := write_text value
  simp [write, element, startTag, endTag, Token.write, Tag.write] at htext ⊢
  simp [htext]
  rfl

theorem tags_eq (page : PageMeta) : page.tags = (tagLines escapeHtml page).map write := by
  rw [PageMeta.tags, tagLines, List.map_append, List.map_append, List.map_append]
  congr 1
  · congr 1
    · congr 1
      · simp only [List.map_cons, List.map_nil, write_metaTag, write_canonical, write_element]
        rfl
      · cases truthy page.description with
        | none => rfl
        | some description =>
            simp only [Option.elim_some, List.map_cons, List.map_nil, write_metaTag]
            rfl
    · cases truthy page.image with
      | none => rfl
      | some image =>
          simp only [Option.elim_some, List.map_cons, List.map_nil, write_metaTag]
          rfl
  · cases page.price with
    | none => rfl
    | some price =>
        simp only [Option.elim_some, List.map_cons, List.map_nil, write_metaTag]
        rfl

theorem write_headLines : ([10] : Units).intercalate (headLines.map write) =
    unitsOf "<!doctype html>\n<html lang=\"es\">\n<head>\n<meta charset=\"utf-8\">\n" ++
      unitsOf "<meta name=\"viewport\" content=\"width=device-width, initial-scale=1.0\">" := by
  decide +kernel

theorem write_link (address value : Units) :
    write (element "a" [("href", address)] value) =
      unitsOf "<a href=\"" ++ address ++ unitsOf "\">" ++ value ++ unitsOf "</a>" := by
  have htext := write_text value
  simp [write, element, startTag, endTag, Token.write, Tag.write, writeAttribute] at htext ⊢
  simp [htext]
  rfl

theorem write_bodyLines (page : PageMeta) :
    ([10] : Units).intercalate ((bodyLines escapeHtml page).map write) =
      unitsOf "</head>\n<body>\n<h1>" ++ escapeHtml page.title ++ unitsOf "</h1>\n" ++
        (truthy page.description).elim [] (fun description =>
          unitsOf "<p>" ++ escapeHtml description ++ unitsOf "</p>") ++
        unitsOf "\n<p><a href=\"" ++ escapeHtml page.canonical ++ unitsOf "\">" ++
        escapeHtml page.siteName ++ unitsOf "</a></p>\n</body>\n</html>" := by
  have hdescription : write ((truthy page.description).elim [] fun description =>
      element "p" [] (escapeHtml description)) =
      (truthy page.description).elim [] fun description =>
        unitsOf "<p>" ++ escapeHtml description ++ unitsOf "</p>" := by
    cases truthy page.description with
    | none => rfl
    | some description => exact write_element "p" _
  simp only [bodyLines, List.map_cons, List.map_nil, write_element, write_cons, write_append,
    write_link, hdescription]
  simp only [List.intercalate_cons_cons, List.intercalate_singleton]
  rw [show unitsOf "</head>\n<body>\n<h1>" = write [endTag "head"] ++ ([10] ++
      (write [startTag "body" []] ++ ([10] ++ (unitsOf "<" ++ unitsOf "h1" ++ unitsOf ">")))) from rfl,
    show unitsOf "</h1>\n" = unitsOf "</" ++ unitsOf "h1" ++ unitsOf ">" ++ [10] from rfl,
    show unitsOf "\n<p><a href=\"" = [10] ++ ((startTag "p" []).write ++ unitsOf "<a href=\"") from rfl,
    show unitsOf "</a></p>\n</body>\n</html>" = unitsOf "</a>" ++ ((endTag "p").write ++ ([10] ++
      (write [endTag "body"] ++ ([10] ++ write [endTag "html"])))) from rfl]
  simp only [List.append_assoc, write_cons, write_nil, List.append_nil]

theorem html_eq (page : PageMeta) : html page = write (document escapeHtml page) := by
  have hhead : headLines.map write ≠ [] := by
    simp [headLines]
  have htags : page.tags ≠ [] := by
    simp [PageMeta.tags]
  have hbody : (bodyLines escapeHtml page).map write ≠ [] := by
    simp [bodyLines]
  rw [document, write_joinLines, List.map_append, List.map_append, ← tags_eq,
    intercalate_append (by simp [hhead]) hbody, intercalate_append hhead htags, write_headLines,
    write_bodyLines, html]
  rw [show unitsOf "<meta name=\"viewport\" content=\"width=device-width, initial-scale=1.0\">\n" =
      unitsOf "<meta name=\"viewport\" content=\"width=device-width, initial-scale=1.0\">" ++ [10] from rfl,
    show unitsOf "\n</head>\n<body>\n<h1>" = [10] ++ unitsOf "</head>\n<body>\n<h1>" from rfl,
    show unitsOf "\n" = [10] from rfl]
  simp only [List.append_assoc]

/-- A heading is written between its tags. -/
example : write (element "h1" [] (unitsOf "Mugs &amp; more")) =
    unitsOf "<h1>Mugs &amp; more</h1>" := by
  decide +kernel

/-! ## The page is read as the template -/

theorem quote_notMem (value : Units) : quotationMark ∉ escapeHtml value := by
  rw [escapeHtml_eq]
  exact notMem_escape (by simp) value

theorem lt_notMem (value : Units) : unit '<' ∉ escapeHtml value := by
  rw [escapeHtml_eq]
  exact notMem_escape (by simp) value

theorem isName_keys : ∀ key ∈ ["lang", "charset", "name", "property", "content", "rel", "href"],
    IsName (unitsOf key) := by
  decide +kernel

def plainElements : List String := ["html", "head", "meta", "link", "body", "h1", "p", "a"]

theorem isName_elements : ∀ name ∈ plainElements,
    IsName (unitsOf name) ∧ unitsOf name ∉ rcdataElements ++ rawElements := by
  decide +kernel

theorem plain_keys : ∀ key ∈ ["viewport", "og:type", "og:title", "og:url", "og:site_name",
    "twitter:card", "twitter:title", "description", "og:description", "twitter:description",
    "og:image", "twitter:image", "product:price:amount", "product:price:currency"],
    quotationMark ∉ unitsOf key ∧ unescape (unitsOf key) = unitsOf key := by
  decide +kernel

theorem closed_metaTag {kind key : String} {value : Units} (hkind : kind = "property" ∨ kind = "name")
    (hkey : quotationMark ∉ unitsOf key) (hvalue : quotationMark ∉ value) :
    Closed (metaTag kind key value) := by
  have hmeta := isName_elements "meta" (by simp [plainElements])
  apply closed_startTag hmeta.1 hmeta.2
  · rintro pair hpair
    simp only [List.mem_cons, List.not_mem_nil, or_false] at hpair
    rcases hpair with rfl | rfl
    · rcases hkind with rfl | rfl <;> exact isName_keys _ (by simp)
    · exact isName_keys _ (by simp)
  · have hdistinct : ∀ kind ∈ ["property", "name"], [unitsOf kind, unitsOf "content"].Nodup := by
      decide +kernel
    exact hdistinct kind (by simpa using hkind)
  · simp [hkey, hvalue]

theorem closed_tagLines (page : PageMeta) : ∀ line ∈ tagLines escapeHtml page, Closed line := by
  have htitle : Closed (element "title" [] (escapeHtml page.title)) :=
    .rcdata (by decide +kernel) (by decide +kernel) rfl (lt_notMem _)
  have hlink := isName_elements "link" (by simp [plainElements])
  have hcanonical : Closed [startTag "link" [("rel", unitsOf "canonical"),
      ("href", escapeHtml page.canonical)]] := by
    apply closed_startTag hlink.1 hlink.2
    · simp [isName_keys]
    · change [unitsOf "rel", unitsOf "href"].Nodup
      decide +kernel
    · simp [quote_notMem]
      decide +kernel
  have htype : quotationMark ∉ page.type.toUnits := by
    cases page.type <;> decide +kernel
  have hcard : quotationMark ∉ if (truthy page.image).isSome then unitsOf "summary_large_image"
      else unitsOf "summary" := by
    split <;> decide +kernel
  have hescaped : ∀ (kind key : String) (value : Units), kind = "property" ∨ kind = "name" →
      quotationMark ∉ unitsOf key → Closed (metaTag kind key (escapeHtml value)) :=
    fun kind key value hkind hkey => closed_metaTag hkind hkey (quote_notMem value)
  have hkeys := plain_keys
  simp only [List.forall_mem_cons, List.not_mem_nil, false_imp_iff, implies_true, and_true] at hkeys
  rw [tagLines, List.forall_mem_append, List.forall_mem_append, List.forall_mem_append]
  refine ⟨⟨⟨?_, ?_⟩, ?_⟩, ?_⟩
  · simp [htitle, hcanonical, hescaped, closed_metaTag, hkeys, htype, hcard]
  · cases truthy page.description <;> simp [hescaped, hkeys]
  · cases truthy page.image <;> simp [hescaped, hkeys]
  · cases page.price <;> simp [hescaped, hkeys]

theorem closed_headLines : ∀ line ∈ headLines, Closed line := by
  have hstart : ∀ name ∈ plainElements,
      ∀ pairs ∈ [[], [("lang", unitsOf "es")], [("charset", unitsOf "utf-8")]],
        Closed [startTag name pairs] := by
    intro name hname pairs hpairs
    have hplain := isName_elements name hname
    simp only [List.mem_cons, List.not_mem_nil, or_false] at hpairs
    rcases hpairs with rfl | rfl | rfl <;>
      exact closed_startTag hplain.1 hplain.2 (by decide +kernel) (by decide +kernel) (by decide +kernel)
  have hdoctype : Closed [.doctype (unitsOf "html")] := .doctype (by decide +kernel)
  have hviewport : Closed (metaTag "name" "viewport"
      (unitsOf "width=device-width, initial-scale=1.0")) :=
    closed_metaTag (by simp) (by decide +kernel) (by decide +kernel)
  rw [plainElements] at hstart
  simp [headLines, hdoctype, hviewport, hstart]

theorem closed_bodyLines (page : PageMeta) : ∀ line ∈ bodyLines escapeHtml page, Closed line := by
  have hend : ∀ name ∈ plainElements,
      Closed [endTag name] := fun name hname => closed_endTag (isName_elements name hname).1
  have hstart : ∀ name ∈ plainElements,
      Closed [startTag name []] := fun name hname =>
    closed_startTag (isName_elements name hname).1 (isName_elements name hname).2 (by simp) (by simp)
      (by simp)
  have helement : ∀ name ∈ plainElements, ∀ value,
      Closed (element name [] (escapeHtml value)) := fun name hname value =>
    .element (hstart name hname) (lt_notMem value) (hend name hname)
  have hlink : Closed (element "a" [("href", escapeHtml page.canonical)] (escapeHtml page.siteName)) := by
    have hplain := isName_elements "a" (by simp [plainElements])
    apply Closed.element _ (lt_notMem _) (hend "a" (by simp [plainElements]))
    apply closed_startTag hplain.1 hplain.2
    · simp [isName_keys]
    · simp
    · simp [quote_notMem]
  have hparagraph : Closed (startTag "p" [] :: (element "a" [("href", escapeHtml page.canonical)]
      (escapeHtml page.siteName) ++ [endTag "p"])) :=
    (hstart "p" (by simp [plainElements])).append (hlink.append (hend "p" (by simp [plainElements])))
  have hdescription : Closed ((truthy page.description).elim [] fun description =>
      element "p" [] (escapeHtml description)) := by
    cases truthy page.description with
    | none => exact .nil
    | some description => exact helement "p" (by simp [plainElements]) description
  rw [plainElements] at hend hstart helement
  simp [bodyLines, hend, hstart, helement, hparagraph, hdescription]

theorem tokenize_html (page : PageMeta) :
    tokenize (html page) = some (document escapeHtml page) := by
  rw [html_eq]
  apply tokenize_write
  apply Closed.clean
  apply closed_joinLines
  rw [List.forall_mem_append, List.forall_mem_append]
  exact ⟨⟨closed_headLines, closed_tagLines page⟩, closed_bodyLines page⟩

/-! ## What the page says -/

theorem unescape_escapeHtml (value : Units) : unescape (escapeHtml value) = value := by
  rw [escapeHtml_eq, unescape_escape]

theorem decodes_startTag (name : String) (pairs : List (String × Units)) :
    Decodes [startTag name pairs] [startTag name (pairs.map fun pair => (pair.1, unescape pair.2))] := by
  have h := Decodes.tag ⟨false, unitsOf name, pairs.map fun pair => (unitsOf pair.1, pair.2)⟩
  simpa [startTag, Tag.decode, Function.comp_def] using h

theorem decodes_plain {name : String} {pairs : List (String × Units)}
    (h : ∀ pair ∈ pairs, unescape pair.2 = pair.2) :
    Decodes [startTag name pairs] [startTag name pairs] := by
  have hsame : pairs.map (fun pair => (pair.1, unescape pair.2)) = pairs := by
    rw [List.map_congr_left fun pair hpair => by rw [h pair hpair], List.map_id']
  have hdecodes := decodes_startTag name pairs
  rwa [hsame] at hdecodes

theorem decodes_metaTag {kind key : String} {value value' : Units}
    (hkey : unescape (unitsOf key) = unitsOf key) (hvalue : unescape value = value') :
    Decodes (metaTag kind key value) (metaTag kind key value') := by
  have h := decodes_startTag "meta" [(kind, unitsOf key), ("content", value)]
  simpa [metaTag, hkey, hvalue] using h

theorem decodes_element {name : String} {pairs pairs' : List (String × Units)}
    (h : Decodes [startTag name pairs] [startTag name pairs']) (value : Units) :
    Decodes (element name pairs (escapeHtml value)) (element name pairs' value) := by
  rw [escapeHtml_eq]
  exact h.append (.escaped value ⟨true, unitsOf name, []⟩)

theorem decodes_headLines : List.Forall₂ Decodes headLines headLines := by
  have hplain : ∀ value ∈ ["es", "utf-8", "viewport", "width=device-width, initial-scale=1.0"],
      unescape (unitsOf value) = unitsOf value := by
    decide +kernel
  simp only [List.forall_mem_cons, List.not_mem_nil, false_imp_iff, implies_true, and_true] at hplain
  simp only [headLines, List.forall₂_cons, List.forall₂_nil_left_iff, and_true]
  exact ⟨.doctype _, decodes_plain (by simp [hplain]), decodes_plain (by simp),
    decodes_plain (by simp [hplain]), decodes_plain (by simp [hplain])⟩

theorem decodes_tagLines (page : PageMeta) :
    List.Forall₂ Decodes (tagLines escapeHtml page) (tagLines id page) := by
  have hkeys := plain_keys
  simp only [List.forall_mem_cons, List.not_mem_nil, false_imp_iff, implies_true, and_true] at hkeys
  have hescaped : ∀ kind key value, unescape (unitsOf key) = unitsOf key →
      Decodes (metaTag kind key (escapeHtml value)) (metaTag kind key value) :=
    fun kind key value hkey => decodes_metaTag hkey (unescape_escapeHtml value)
  have htitle : Decodes (element "title" [] (escapeHtml page.title)) (element "title" [] page.title) :=
    decodes_element (decodes_plain (by simp)) page.title
  have hcanonical := decodes_startTag "link" [("rel", unitsOf "canonical"),
    ("href", escapeHtml page.canonical)]
  rw [List.map_cons, List.map_cons, List.map_nil, unescape_escapeHtml,
    show unescape (unitsOf "canonical") = unitsOf "canonical" by decide +kernel] at hcanonical
  have htype : unescape page.type.toUnits = page.type.toUnits := by
    cases page.type <;> decide +kernel
  have hcard : unescape (if (truthy page.image).isSome then unitsOf "summary_large_image"
      else unitsOf "summary") =
      if (truthy page.image).isSome then unitsOf "summary_large_image" else unitsOf "summary" := by
    split <;> decide +kernel
  apply List.rel_append
  · apply List.rel_append
    · apply List.rel_append
      · simp [htitle, hcanonical, hescaped, hkeys, decodes_metaTag hkeys.2.1.2 htype,
          decodes_metaTag hkeys.2.2.2.2.2.1.2 hcard]
      · cases truthy page.description <;> simp [hescaped, hkeys]
    · cases truthy page.image <;> simp [hescaped, hkeys]
  · cases page.price <;> simp [hescaped, hkeys]

theorem decodes_bodyLines (page : PageMeta) :
    List.Forall₂ Decodes (bodyLines escapeHtml page) (bodyLines id page) := by
  have hend : ∀ name, Decodes [endTag name] [endTag name] := fun name => .tag ⟨true, unitsOf name, []⟩
  have hstart : ∀ name, Decodes [startTag name []] [startTag name []] := fun name =>
    decodes_plain (by simp)
  have helement : ∀ name value, Decodes (element name [] (escapeHtml value)) (element name [] value) :=
    fun name value => decodes_element (hstart name) value
  have hhref := decodes_startTag "a" [("href", escapeHtml page.canonical)]
  rw [List.map_cons, List.map_nil, unescape_escapeHtml] at hhref
  have hparagraph := (hstart "p").append ((decodes_element hhref page.siteName).append (hend "p"))
  have hdescription : Decodes
      ((truthy page.description).elim [] fun description => element "p" [] (escapeHtml description))
      ((truthy page.description).elim [] fun description => element "p" [] description) := by
    cases truthy page.description with
    | none => exact .nil
    | some description => exact helement "p" description
  simpa [bodyLines, hend, hstart, helement, hdescription] using hparagraph

/-- Read with its references, the page has every text as it was. -/
theorem decode_document (page : PageMeta) : decode (document escapeHtml page) = document id page :=
  (Decodes.joinLines (List.rel_append (List.rel_append decodes_headLines (decodes_tagLines page))
    (decodes_bodyLines page))).decode_eq

/-! ## The outline -/

def metaOutline (kind : String) : Outline := ⟨false, unitsOf "meta", [unitsOf kind, unitsOf "content"]⟩

/-- The tags and the names of their attributes, for a page with a description, an image or
a price, or without. -/
def template (described pictured priced : Bool) : List Outline :=
  let start := fun name keys => (⟨false, unitsOf name, List.map unitsOf keys⟩ : Outline)
  let close := fun name => (⟨true, unitsOf name, []⟩ : Outline)
  let kinds := ["property", "property", "property", "property", "name", "name"] ++
    (if described then ["name", "property", "name"] else []) ++
    (if pictured then ["property", "name"] else []) ++
    (if priced then ["property", "property"] else [])
  [start "html" ["lang"], start "head" [], start "meta" ["charset"], metaOutline "name",
    start "title" [], close "title", start "link" ["rel", "href"]] ++ kinds.map metaOutline ++
  [close "head", start "body" [], start "h1" [], close "h1"] ++
  (if described then [start "p" [], close "p"] else []) ++
  [start "p" [], start "a" ["href"], close "a", close "p", close "body", close "html"]

@[simp] theorem outline_startTag (name : String) (pairs : List (String × Units)) :
    (startTag name pairs).outline = some ⟨false, unitsOf name, pairs.map (unitsOf ·.1)⟩ := by
  simp [startTag, Token.outline, Function.comp_def]

@[simp] theorem outline_endTag (name : String) :
    (endTag name).outline = some ⟨true, unitsOf name, []⟩ := rfl

@[simp] theorem outline_element (name : String) (pairs : List (String × Units)) (value : Units) :
    outline (element name pairs value) =
      [⟨false, unitsOf name, pairs.map (unitsOf ·.1)⟩, ⟨true, unitsOf name, []⟩] := by
  simp [element, outline_cons]

@[simp] theorem outline_metaTag (kind key : String) (value : Units) :
    outline (metaTag kind key value) = [metaOutline kind] := by
  simp [metaTag, metaOutline, outline_cons]

/-- No text adds a tag or an attribute, however it is written. -/
theorem outline_document (f : Units → Units) (page : PageMeta) :
    outline (document f page) = template (truthy page.description).isSome
      (truthy page.image).isSome page.price.isSome := by
  rw [document, outline_joinLines]
  cases hdescription : truthy page.description <;> cases himage : truthy page.image <;>
    cases hprice : page.price <;>
    simp [headLines, tagLines, bodyLines, template, outline_cons, hdescription, himage, hprice]

/-- Whatever the texts are, the tokenizer finds the template's own tags and names of attributes
in a preview, and every text, once its references are read, is the one that was put there. -/
theorem render_template {db : Database} {request : PreviewRequest} {result : Units}
    (h : render db request = some result) :
    ∃ page tokens, pageMeta db request = some page ∧ tokenize result = some tokens ∧
      outline tokens = template (truthy page.description).isSome (truthy page.image).isSome
        page.price.isSome ∧
      decode tokens = document id page := by
  obtain ⟨page, hpage, rfl⟩ := Option.map_eq_some_iff.1 h
  exact ⟨page, _, hpage, tokenize_html page, outline_document _ page, decode_document page⟩

def scriptShop : Database where
  tenants := [⟨1, unitsOf "mugs", true, unitsOf "\"><script>", none, some (unitsOf "a <b>&amp;</b>"), none,
    none, unitsOf "USD"⟩]
  products := []
  readId := fun _ => none

def scriptRequest : PreviewRequest where
  path := unitsOf "/store/mugs?ref=1"
  hostSlug := none
  origin := unitsOf "https://shop.test"

theorem render_template_script :
    ∃ page tokens, pageMeta scriptShop scriptRequest = some page ∧
      tokenize (html (storeMeta ⟨1, unitsOf "mugs", true, unitsOf "\"><script>", none,
        some (unitsOf "a <b>&amp;</b>"), none, none, unitsOf "USD"⟩ (unitsOf "https://shop.test")
        (unitsOf "https://shop.test/store/mugs"))) = some tokens ∧
      outline tokens = template (truthy page.description).isSome (truthy page.image).isSome
        page.price.isSome ∧
      decode tokens = document id page :=
  @render_template scriptShop scriptRequest _ (by
    rw [render]
    rfl)

end WhatStore.Preview
