import WhatStore.Text.Numbers
import Mathlib.Data.List.Infix
import Mathlib.Data.List.Nodup

/-!
# Substitution in texts

`String.prototype.replaceAll` with a text as replacement, a chain of such calls over
placeholders in braces, and the simultaneous substitution of all of them. A chain
substitutes simultaneously when no call replaces more than the template's own
placeholders, and no value is read as a replacement pattern.
-/

namespace WhatStore.Text

/-! ## Replacing a text -/

/-- What a replacement stands for: in it `$$`, `$&`, `$` with a backtick and `$` with an
apostrophe are a dollar sign, the match, the text before it and the text after it. -/
def getSubstitution (matched before after : Chars) : Chars → Chars
  | '$' :: '$' :: r => '$' :: getSubstitution matched before after r
  | '$' :: '&' :: r => matched ++ getSubstitution matched before after r
  | '$' :: '\x60' :: r => before ++ getSubstitution matched before after r
  | '$' :: '\x27' :: r => after ++ getSubstitution matched before after r
  | c :: r => c :: getSubstitution matched before after r
  | [] => []

/-- The text from the `skip`-th character on, of which `before` is read already. -/
def replaceFrom (p r before : Chars) : ℕ → Chars → Chars
  | _, [] => []
  | skip + 1, c :: s => replaceFrom p r (before ++ [c]) skip s
  | 0, c :: s =>
    if p.isPrefixOf (c :: s) then
      getSubstitution p before ((c :: s).drop p.length) r ++
        replaceFrom p r (before ++ [c]) (p.length - 1) s
    else c :: replaceFrom p r (before ++ [c]) 0 s

/-- `s.replaceAll(p, r)` for a text `p` that is not empty. -/
def replaceAll (s p r : Chars) : Chars := replaceFrom p r [] 0 s

/-! ## Placeholders -/

structure Name where
  text : Chars
  plain : '{' ∉ text ∧ '}' ∉ text
  deriving DecidableEq

def Name.placeholder (name : Name) : Chars := '{' :: (name.text ++ ['}'])

abbrev Values := List (Name × Chars)

/-- The chain of `replaceAll` calls. -/
def render (template : Chars) (values : Values) : Chars :=
  values.foldl (fun s x => replaceAll s x.1.placeholder x.2) template

def startsWith (values : Values) (s : Chars) : Option (Name × Chars) :=
  values.find? fun x => x.1.placeholder.isPrefixOf s

/-- Each placeholder of the text is replaced by its value as it is, and nothing else. -/
def substituteFrom (values : Values) : ℕ → Chars → Chars
  | _, [] => []
  | skip + 1, _ :: s => substituteFrom values skip s
  | 0, c :: s =>
    match startsWith values (c :: s) with
    | some x => x.2 ++ substituteFrom values (x.1.placeholder.length - 1) s
    | none => c :: substituteFrom values 0 s

def substitute (template : Chars) (values : Values) : Chars := substituteFrom values 0 template

/-- How often the text has `p`. -/
def occurrences (p s : Chars) : ℕ := s.tails.countP p.isPrefixOf

/-- The characters after `$` in a replacement pattern. -/
def patternChars : Chars := ['$', '&', '\x60', '\x27']

/-- The value is not read as a replacement pattern. -/
def Verbatim : Chars → Prop
  | '$' :: c :: s => c ∉ patternChars ∧ Verbatim (c :: s)
  | _ :: s => Verbatim s
  | [] => True

variable {p v s u before : Chars} {values : Values} {x : Name × Chars} {c : Char}

/-! ## One call -/

theorem Verbatim.tail (h : Verbatim (c :: s)) : Verbatim s := by
  unfold Verbatim at h
  split at h
  · next heq =>
      cases heq
      exact h.2
  · next heq =>
      cases heq
      exact h
  · next heq => cases heq

theorem Verbatim.notMem (h : Verbatim ('$' :: c :: s)) : c ∉ patternChars := h.1

theorem getSubstitution_verbatim {matched before after : Chars} (h : Verbatim v) :
    getSubstitution matched before after v = v := by
  fun_induction getSubstitution matched before after v with
  | case1 r => exact absurd h.notMem (by decide)
  | case2 r => exact absurd h.notMem (by decide)
  | case3 r => exact absurd h.notMem (by decide)
  | case4 r => exact absurd h.notMem (by decide)
  | case5 c r _ _ _ _ ih => rw [ih h.tail]
  | case6 => rfl

theorem replaceFrom_skip (skip : ℕ) : ∀ (before s : Chars), replaceFrom p v before skip s =
    replaceFrom p v (before ++ s.take skip) 0 (s.drop skip) := by
  induction skip with
  | zero => simp
  | succ skip ih =>
      intro before s
      cases s with
      | nil => simp [replaceFrom]
      | cons c s => simp [replaceFrom, ih]

theorem replaceFrom_hit (hp : p ≠ []) (hv : Verbatim v) :
    replaceFrom p v before 0 (p ++ s) = v ++ replaceFrom p v (before ++ p) 0 s := by
  obtain ⟨c, p, rfl⟩ := List.exists_cons_of_ne_nil hp
  have hprefix : (c :: p).isPrefixOf (c :: (p ++ s)) = true :=
    List.isPrefixOf_iff_prefix.2 (List.prefix_append (c :: p) s)
  rw [List.cons_append, replaceFrom, if_pos hprefix, getSubstitution_verbatim hv, replaceFrom_skip]
  simp

theorem replaceFrom_miss (h : ¬ p <+: c :: s) :
    replaceFrom p v before 0 (c :: s) = c :: replaceFrom p v (before ++ [c]) 0 s := by
  rw [replaceFrom, if_neg (by rwa [List.isPrefixOf_iff_prefix])]

/-! ## Occurrences -/

theorem occurrences_cons (p : Chars) (c : Char) (s : Chars) :
    occurrences p (c :: s) = occurrences p s + if p <+: c :: s then 1 else 0 := by
  simp only [occurrences, List.tails, List.countP_cons, List.isPrefixOf_iff_prefix]

theorem occurrences_le_append (w : Chars) : occurrences p s ≤ occurrences p (w ++ s) := by
  induction w with
  | nil => exact le_rfl
  | cons c w ih =>
      rw [List.cons_append, occurrences_cons]
      omega

theorem replaceFrom_append {w : Chars} (h : occurrences p (w ++ s) = occurrences p s) :
    ∀ before, replaceFrom p v before 0 (w ++ s) = w ++ replaceFrom p v (before ++ w) 0 s := by
  induction w with
  | nil => simp
  | cons c w ih =>
      intro before
      rw [List.cons_append, occurrences_cons] at h
      have hle := occurrences_le_append (p := p) (s := s) w
      have hmiss : ¬ p <+: c :: (w ++ s) := by
        intro hprefix
        rw [if_pos hprefix] at h
        omega
      rw [if_neg hmiss] at h
      rw [List.cons_append, replaceFrom_miss hmiss, ih h, List.cons_append, List.append_assoc]
      rfl

/-! ## Placeholders in texts -/

variable {name name' : Name}

@[simp] theorem Name.placeholder_ne_nil (name : Name) : name.placeholder ≠ [] :=
  List.cons_ne_nil _ _

/-- A placeholder is read off the text in one way. -/
theorem Name.eq_of_prefix (h : name.placeholder <+: name'.placeholder ++ s) : name = name' := by
  obtain ⟨r, hr⟩ := h
  simp only [placeholder, List.cons_append, List.append_assoc, List.nil_append,
    List.cons.injEq, true_and] at hr
  have htext : name.text = name'.text := by
    have htake := congrArg (List.takeWhile (· != '}')) hr
    have hplain : ∀ n : Name, ∀ c ∈ n.text, (c != '}') = true := by
      intro n c hc
      have hne : c ≠ '}' := fun heq => n.plain.2 (heq ▸ hc)
      simpa using hne
    rwa [List.takeWhile_append_of_pos (hplain name), List.takeWhile_append_of_pos (hplain name'),
      List.takeWhile_cons_of_neg (by simp), List.takeWhile_cons_of_neg (by simp),
      List.append_nil, List.append_nil] at htake
  cases name
  cases name'
  simp_all

theorem Name.prefix_iff : name.placeholder <+: name'.placeholder ++ s ↔ name = name' := by
  constructor
  · exact eq_of_prefix
  · rintro rfl
    exact List.prefix_append _ _

theorem occurrences_append_plain {w : Chars} (h : '{' ∉ w) :
    occurrences name.placeholder (w ++ s) = occurrences name.placeholder s := by
  induction w with
  | nil => rfl
  | cons c w ih =>
      rw [List.mem_cons, not_or] at h
      have hmiss : ¬ name.placeholder <+: c :: (w ++ s) := by
        intro hprefix
        exact h.1 (List.cons_prefix_cons.1 hprefix).1
      rw [List.cons_append, occurrences_cons, if_neg hmiss, add_zero, ih h.2]

theorem Name.notMem_rest (name : Name) : '{' ∉ name.text ++ ['}'] := by
  simpa using name.plain.1

theorem occurrences_placeholder : occurrences name.placeholder (name'.placeholder ++ s) =
    occurrences name.placeholder s + if name = name' then 1 else 0 := by
  have hcons : name'.placeholder ++ s = '{' :: (name'.text ++ ['}'] ++ s) := rfl
  rw [hcons, occurrences_cons, ← hcons, occurrences_append_plain name'.notMem_rest]
  simp only [Name.prefix_iff]

/-! ## The simultaneous substitution -/

theorem substituteFrom_skip (skip : ℕ) : ∀ s : Chars,
    substituteFrom values skip s = substituteFrom values 0 (s.drop skip) := by
  induction skip with
  | zero => simp
  | succ skip ih =>
      intro s
      cases s with
      | nil => simp [substituteFrom]
      | cons c s => simp [substituteFrom, ih]

theorem startsWith_some (h : startsWith values s = some x) :
    x ∈ values ∧ ∃ s', s = x.1.placeholder ++ s' := by
  have hprefix := List.find?_some h
  rw [List.isPrefixOf_iff_prefix] at hprefix
  obtain ⟨s', hs'⟩ := hprefix
  exact ⟨List.mem_of_find?_eq_some h, s', hs'.symm⟩

theorem startsWith_none (h : startsWith values s = none) (hx : x ∈ values) :
    ¬ x.1.placeholder <+: s := by
  have hnone := List.find?_eq_none.1 h x hx
  rwa [List.isPrefixOf_iff_prefix] at hnone

theorem startsWith_placeholder (hnodup : (values.map Prod.fst).Nodup) (hx : x ∈ values) :
    startsWith values (x.1.placeholder ++ s) = some x := by
  cases hfound : startsWith values (x.1.placeholder ++ s) with
  | none => exact absurd (List.prefix_append _ _) (startsWith_none hfound hx)
  | some y =>
      obtain ⟨hy, s', hs'⟩ := startsWith_some hfound
      have hname : y.1 = x.1 := Name.eq_of_prefix ⟨s', hs'.symm⟩
      rw [List.inj_on_of_nodup_map hnodup hy hx hname]

theorem substitute_nil : substitute [] values = [] := by rw [substitute, substituteFrom]

theorem substitute_hit (h : startsWith values (x.1.placeholder ++ s) = some x) :
    substitute (x.1.placeholder ++ s) values = x.2 ++ substitute s values := by
  have hcons : x.1.placeholder ++ s = '{' :: (x.1.text ++ ['}'] ++ s) := rfl
  rw [hcons] at h
  rw [hcons, substitute, substituteFrom, h]
  simp only
  rw [substituteFrom_skip, substitute]
  refine congrArg (fun r => x.2 ++ substituteFrom values 0 r) ?_
  exact List.drop_left' (by simp [Name.placeholder])

theorem substitute_miss (h : startsWith values (c :: s) = none) :
    substitute (c :: s) values = c :: substitute s values := by
  rw [substitute, substituteFrom, h, substitute]

theorem substitute_append_plain {w : Chars} (h : '{' ∉ w) :
    substitute (w ++ s) values = w ++ substitute s values := by
  induction w with
  | nil => rfl
  | cons c w ih =>
      rw [List.mem_cons, not_or] at h
      have hnone : startsWith values (c :: (w ++ s)) = none := by
        refine List.find?_eq_none.2 fun x _ hprefix => ?_
        rw [List.isPrefixOf_iff_prefix] at hprefix
        exact h.1 (List.cons_prefix_cons.1 hprefix).1
      rw [List.cons_append, substitute_miss hnone, ih h.2]
      rfl

/-- A text is read from its start: a placeholder that has a value, or a character. -/
theorem template_induction {motive : Chars → Prop} (values : Values) (nil : motive [])
    (hit : ∀ x ∈ values, ∀ s, motive s → motive (x.1.placeholder ++ s))
    (miss : ∀ c s, startsWith values (c :: s) = none → motive s → motive (c :: s)) (s : Chars) :
    motive s := by
  induction hn : s.length using Nat.strong_induction_on generalizing s with
  | _ n ih =>
      cases s with
      | nil => exact nil
      | cons c s =>
          cases hfound : startsWith values (c :: s) with
          | none => exact miss c s hfound (ih s.length (by simp [← hn]) s rfl)
          | some x =>
              obtain ⟨hx, s', hs'⟩ := startsWith_some hfound
              rw [hs'] at hn ⊢
              refine hit x hx s' (ih s'.length ?_ s' rfl)
              rw [← hn, List.length_append]
              have hpos := List.length_pos_iff.2 x.1.placeholder_ne_nil
              omega

theorem startsWith_of_both {done : Values} (h : startsWith (done ++ [x]) s = none) :
    startsWith done s = none ∧ ¬ x.1.placeholder <+: s := by
  refine ⟨?_, startsWith_none h (by simp)⟩
  rw [startsWith, List.find?_append, Option.or_eq_none_iff] at h
  exact h.1

section Stage

variable {done : Values} (hnodup : ((done ++ [x]).map Prod.fst).Nodup)

include hnodup

theorem startsWith_done {y : Name × Chars} (hy : y ∈ done) :
    startsWith done (y.1.placeholder ++ s) = some y :=
  startsWith_placeholder (hnodup.sublist (List.map_append ▸ List.sublist_append_left _ _)) hy

theorem name_ne {y : Name × Chars} (hy : y ∈ done) : x.1 ≠ y.1 := by
  intro heq
  rw [List.map_append, List.nodup_append] at hnodup
  exact hnodup.2.2 y.1 (List.mem_map_of_mem hy) x.1 (by simp) heq.symm

theorem substitute_next : substitute (x.1.placeholder ++ s) done =
    x.1.placeholder ++ substitute s done := by
  have hcons : x.1.placeholder ++ s = '{' :: (x.1.text ++ ['}'] ++ s) := rfl
  have hnone : startsWith done (x.1.placeholder ++ s) = none := by
    refine List.find?_eq_none.2 fun y hy hprefix => ?_
    rw [List.isPrefixOf_iff_prefix] at hprefix
    exact name_ne hnodup hy (Name.eq_of_prefix hprefix).symm
  rw [hcons] at hnone
  rw [hcons, substitute_miss hnone, substitute_append_plain x.1.notMem_rest]
  rfl

theorem occurrences_le_substitute (t : Chars) :
    occurrences x.1.placeholder t ≤ occurrences x.1.placeholder (substitute t done) := by
  induction t using template_induction (done ++ [x]) with
  | nil => rw [substitute_nil]
  | hit y hy s ih =>
      rcases List.mem_append.1 hy with hy | hy
      · rw [substitute_hit (startsWith_done hnodup hy), occurrences_placeholder,
          if_neg (name_ne hnodup hy)]
        exact ih.trans (occurrences_le_append _)
      · obtain rfl := List.mem_singleton.1 hy
        rw [substitute_next hnodup, occurrences_placeholder, occurrences_placeholder]
        omega
  | miss c s hnone ih =>
      obtain ⟨hdone, hnext⟩ := startsWith_of_both hnone
      rw [substitute_miss hdone, occurrences_cons, occurrences_cons, if_neg hnext]
      omega

/-- A call that replaces the template's own placeholders by a value that has no pattern
takes the substitution one name further. -/
theorem replaceFrom_substitute (t : Chars) : ∀ before : Chars,
    occurrences x.1.placeholder (substitute t done) = occurrences x.1.placeholder t →
    (occurrences x.1.placeholder t ≠ 0 → Verbatim x.2) →
    replaceFrom x.1.placeholder x.2 before 0 (substitute t done) = substitute t (done ++ [x]) := by
  induction t using template_induction (done ++ [x]) with
  | nil =>
      intro before _ _
      rw [substitute_nil, substitute_nil, replaceFrom]
  | hit y hy s ih =>
      intro before hcount hverbatim
      rw [substitute_hit (startsWith_placeholder hnodup hy)]
      have hle := occurrences_le_substitute hnodup s
      rcases List.mem_append.1 hy with hy | hy
      · rw [occurrences_placeholder, if_neg (name_ne hnodup hy)] at hcount hverbatim
        rw [substitute_hit (startsWith_done hnodup hy)] at hcount ⊢
        have hvalue := occurrences_le_append (p := x.1.placeholder) (s := substitute s done) y.2
        rw [replaceFrom_append (by omega), ih _ (by omega) hverbatim]
      · obtain rfl := List.mem_singleton.1 hy
        rw [occurrences_placeholder, if_pos rfl] at hcount hverbatim
        have hv : Verbatim y.2 := hverbatim (by omega)
        rw [substitute_next hnodup, occurrences_placeholder, if_pos rfl] at hcount
        rw [substitute_next hnodup, replaceFrom_hit y.1.placeholder_ne_nil hv,
          ih _ (by omega) fun _ => hv]
  | miss c s hnone ih =>
      intro before hcount hverbatim
      obtain ⟨hdone, hnext⟩ := startsWith_of_both hnone
      have hle := occurrences_le_substitute hnodup s
      rw [occurrences_cons, if_neg hnext] at hcount hverbatim
      rw [substitute_miss hdone, occurrences_cons] at hcount
      have hmiss : ¬ x.1.placeholder <+: c :: substitute s done := by
        intro hprefix
        rw [if_pos hprefix] at hcount
        omega
      rw [if_neg hmiss] at hcount
      rw [substitute_miss hdone, substitute_miss hnone, replaceFrom_miss hmiss,
        ih _ hcount hverbatim]

end Stage

/-! ## The whole chain -/

/-- Each call of the chain, from the text on, replaces a placeholder as often as the template
has it, and puts its value in as it is. -/
def ReplacesOwn (template : Chars) : Values → Chars → Prop
  | [], _ => True
  | x :: values, s =>
    occurrences x.1.placeholder s = occurrences x.1.placeholder template ∧
    (occurrences x.1.placeholder template ≠ 0 → Verbatim x.2) ∧
    ReplacesOwn template values (replaceAll s x.1.placeholder x.2)

/-- The chain replaces the placeholders of the template by their values as they are, and
nothing else: no text that comes from a value is read as a placeholder or as a pattern. -/
def RendersVerbatim (template : Chars) (values : Values) (rendered : Chars) : Prop :=
  rendered = substitute template values ∧ ReplacesOwn template values template

/-- The values before the value of a name do not add to its placeholders, and its value has
no pattern when the template has the placeholder. -/
def InertAt (template : Chars) (done : Values) (x : Name × Chars) : Prop :=
  occurrences x.1.placeholder (substitute template done) =
      occurrences x.1.placeholder template ∧
    (occurrences x.1.placeholder template ≠ 0 → Verbatim x.2)

def Inert (template : Chars) (values : Values) : Prop :=
  ∀ done x rest, values = done ++ x :: rest → InertAt template done x

theorem substitute_no_values (t : Chars) : substitute t [] = t := by
  induction t with
  | nil => exact substitute_nil
  | cons c t ih => rw [substitute_miss rfl, ih]

variable {template : Chars}

theorem renders_from (template : Chars) (done rest : Values)
    (hnodup : ((done ++ rest).map Prod.fst).Nodup) :
    (ReplacesOwn template rest (substitute template done) ∧
      render (substitute template done) rest = substitute template (done ++ rest)) ↔
    ∀ mid x rest', rest = mid ++ x :: rest' → InertAt template (done ++ mid) x := by
  induction rest generalizing done with
  | nil => simp [ReplacesOwn, render]
  | cons x rest ih =>
      have ih := ih (done ++ [x])
      have happend : done ++ x :: rest = (done ++ [x]) ++ rest := List.append_cons done x rest
      have hstage : ((done ++ [x]).map Prod.fst).Nodup := by
        rw [happend, List.map_append] at hnodup
        exact (List.nodup_append.1 hnodup).1
      have hnext : InertAt template done x →
          replaceAll (substitute template done) x.1.placeholder x.2 =
            substitute template (done ++ [x]) :=
        fun h => replaceFrom_substitute hstage template [] h.1 h.2
      rw [happend] at hnodup ⊢
      constructor
      · rintro ⟨⟨hcount, hverbatim, hreplaces⟩, hrender⟩ mid y rest' heq
        rw [hnext ⟨hcount, hverbatim⟩] at hreplaces
        rw [render, List.foldl_cons, hnext ⟨hcount, hverbatim⟩] at hrender
        cases mid with
        | nil =>
            cases heq
            rw [List.append_nil]
            exact ⟨hcount, hverbatim⟩
        | cons z mid =>
            cases heq
            rw [List.append_cons]
            exact (ih hnodup).1 ⟨hreplaces, hrender⟩ mid y rest' rfl
      · intro h
        have hinert : InertAt template done x := by
          have hfirst := h [] x rest rfl
          rwa [List.append_nil] at hfirst
        have hrest := (ih hnodup).2 fun mid y rest' heq => by
          have hlater := h (x :: mid) y rest' (by rw [heq]; rfl)
          rwa [List.append_cons] at hlater
        rw [← hnext hinert] at hrest
        exact ⟨⟨hinert.1, hinert.2, hrest.1⟩, hrest.2⟩

/-- **A chain of calls is one simultaneous substitution** exactly when the values are inert. -/
theorem rendersVerbatim_iff (hnodup : (values.map Prod.fst).Nodup) :
    RendersVerbatim template values (render template values) ↔ Inert template values := by
  have hfrom := renders_from template [] values hnodup
  rw [substitute_no_values] at hfrom
  rw [RendersVerbatim, and_comm]
  exact hfrom

end WhatStore.Text
