import WhatStore.Text.Units

/-!
# Paths as `node:path` resolves them

`join` and `relative` of `path.posix`: a path is a list of segments between slashes,
of which empty ones and single dots count for nothing and double dots take the one
before away.
-/

namespace Posix

open WhatStore.Text

def slash : UInt16 := 0x2F

def segments (path : Units) : List Units := path.splitOn slash

def fromSegments (parts : List Units) : Units := [slash].intercalate parts

def isAbsolute (path : Units) : Bool := path.head? = some slash

/-- The next segment on those that stand, the last of them first. -/
def push (allowAboveRoot : Bool) (stack : List Units) (part : Units) : List Units :=
  if part = [] ∨ part = unitsOf "." then stack
  else if part = unitsOf ".." then
    match stack with
    | [] => if allowAboveRoot then [part] else []
    | last :: below => if last = unitsOf ".." then part :: stack else below
  else part :: stack

/-- `normalizeString`. -/
def climb (allowAboveRoot : Bool) (parts : List Units) : List Units :=
  (parts.foldl (push allowAboveRoot) []).reverse

def normalize (path : Units) : Units :=
  if path = [] then unitsOf "."
  else
    let body := fromSegments (climb (!isAbsolute path) (segments path))
    let trailing := path.getLast? = some slash
    if isAbsolute path then
      if body = [] then unitsOf "/" else slash :: (if trailing then body ++ [slash] else body)
    else
      if body = [] then (if trailing then unitsOf "./" else unitsOf ".")
      else if trailing then body ++ [slash] else body

/-- `join(first, second)`. -/
def join (first second : Units) : Units :=
  if first = [] then normalize second
  else if second = [] then normalize first
  else normalize (first ++ slash :: second)

def resolved (path : Units) : List Units := climb false (segments path)

def way : List Units → List Units → List Units
  | part :: start, part' :: goal =>
      if part = part' then way start goal
      else List.replicate (start.length + 1) (unitsOf "..") ++ part' :: goal
  | start, goal => List.replicate start.length (unitsOf "..") ++ goal

/-- `relative(start, goal)` of absolute paths. -/
def relative (start goal : Units) : Units := fromSegments (way (resolved start) (resolved goal))

example : join (unitsOf "/srv/app") (unitsOf "../uploads//a/./b.webp") = unitsOf "/srv/uploads/a/b.webp" ∧
    relative (unitsOf "/srv/uploads") (unitsOf "/srv/other/x") = unitsOf "../other/x" := by
  decide +kernel

/-! ## Names -/

structure IsName (part : Units) : Prop where
  ne_nil : part ≠ []
  ne_dot : part ≠ unitsOf "."
  ne_dots : part ≠ unitsOf ".."
  slash_notMem : slash ∉ part

theorem IsName.push {part : Units} (h : IsName part) (above : Bool) (stack : List Units) :
    push above stack part = part :: stack := by
  unfold Posix.push
  rw [if_neg (by simp [h.ne_nil, h.ne_dot]), if_neg h.ne_dots]

theorem foldl_names {above : Bool} {parts : List Units} (h : ∀ part ∈ parts, IsName part)
    (stack : List Units) : parts.foldl (push above) stack = parts.reverse ++ stack := by
  induction parts generalizing stack with
  | nil => rfl
  | cons part parts ih =>
      rw [List.foldl_cons, (h part List.mem_cons_self).push,
        ih fun part hpart => h part (List.mem_cons_of_mem _ hpart)]
      simp

theorem push_isName {stack : List Units} {part : Units} (hpart : slash ∉ part)
    (hstack : ∀ name ∈ stack, IsName name) : ∀ name ∈ push false stack part, IsName name := by
  unfold push
  split
  · exact hstack
  · next hplain =>
      rw [not_or] at hplain
      split
      · cases stack with
        | nil => simp
        | cons last below =>
            simp only [if_neg (hstack last List.mem_cons_self).ne_dots]
            exact fun name hmem => hstack name (List.mem_cons_of_mem _ hmem)
      · next hdots =>
          intro name hmem
          rcases List.mem_cons.1 hmem with rfl | hmem
          · exact ⟨hplain.1, hplain.2, hdots, hpart⟩
          · exact hstack name hmem

theorem climb_isName {parts : List Units} (hparts : ∀ part ∈ parts, slash ∉ part) :
    ∀ part ∈ climb false parts, IsName part := by
  suffices h : ∀ stack : List Units, (∀ part ∈ stack, IsName part) →
      ∀ part ∈ parts.foldl (push false) stack, IsName part by
    intro part hpart
    exact h [] nofun part (List.mem_reverse.1 hpart)
  induction parts with
  | nil => exact fun _ hstack => hstack
  | cons part parts ih =>
      intro stack hstack
      exact ih (fun part hpart => hparts part (List.mem_cons_of_mem _ hpart)) _
        (push_isName (hparts part List.mem_cons_self) hstack)

theorem slash_notMem_segments {path : Units} : ∀ part ∈ segments path, slash ∉ part :=
  fun _ h => notMem_of_mem_splitOn h

/-! ## Paths of names -/

theorem segments_absolute {parts : List Units} (h : ∀ part ∈ parts, IsName part)
    (hne : parts ≠ []) : segments (slash :: fromSegments parts) = [] :: parts := by
  have hsplit : (fromSegments parts).splitOn slash = parts :=
    List.splitOn_intercalate slash (fun part hpart => (h part hpart).slash_notMem) hne
  rw [segments, List.splitOn_cons_eq_if_modifyHead]
  simp [hsplit]

theorem fromSegments_append {parts more : List Units} (hparts : parts ≠ []) (hmore : more ≠ []) :
    fromSegments (parts ++ more) = fromSegments parts ++ slash :: fromSegments more :=
  intercalate_append hparts hmore

theorem climb_absolute {parts : List Units} (h : ∀ part ∈ parts, IsName part) :
    climb false ([] :: parts) = parts := by
  rw [climb, List.foldl_cons, show push false [] [] = [] from rfl, foldl_names h]
  simp

theorem resolved_absolute {parts : List Units} (h : ∀ part ∈ parts, IsName part)
    (hne : parts ≠ []) : resolved (slash :: fromSegments parts) = parts := by
  rw [resolved, segments_absolute h hne, climb_absolute h]

theorem fromSegments_getLast {parts : List Units} (h : ∀ part ∈ parts, IsName part)
    (hne : parts ≠ []) : (fromSegments parts).getLast? ≠ some slash := by
  obtain ⟨init, last, rfl⟩ := (List.eq_nil_or_concat' parts).resolve_left hne
  have hlast := h last (by simp)
  have hname : last.getLast? ≠ some slash := fun heq =>
    hlast.slash_notMem (List.mem_of_getLast? heq)
  have hnil : last.getLast? ≠ none := by simpa using hlast.ne_nil
  cases init with
  | nil => simpa [fromSegments] using hname
  | cons part init =>
      rw [fromSegments_append (by simp) (by simp)]
      simp only [fromSegments, List.intercalate_singleton, List.getLast?_append, List.getLast?_cons]
      cases hcase : last.getLast? with
      | none => exact absurd hcase hnil
      | some u => simpa [hcase] using hname

theorem fromSegments_ne_nil {parts : List Units} (h : ∀ part ∈ parts, IsName part)
    (hne : parts ≠ []) : fromSegments parts ≠ [] := by
  intro hnil
  have hsplit : (fromSegments parts).splitOn slash = parts :=
    List.splitOn_intercalate slash (fun part hpart => (h part hpart).slash_notMem) hne
  rw [hnil, List.splitOn_nil] at hsplit
  exact (h [] (by simp [← hsplit])).ne_nil rfl

theorem normalize_absolute {path : Units} (habsolute : isAbsolute path = true)
    (hne : climb false (segments path) ≠ []) (hlast : path.getLast? ≠ some slash) :
    normalize path = slash :: fromSegments (climb false (segments path)) := by
  have hbody := fromSegments_ne_nil (climb_isName slash_notMem_segments) hne
  have hpath : path ≠ [] := by
    rintro rfl
    cases habsolute
  rw [normalize, if_neg hpath, if_pos habsolute, habsolute, Bool.not_true]
  simp [hbody, hlast]

theorem join_absolute {first : Units} (habsolute : isAbsolute first = true) {more : List Units}
    (h : ∀ part ∈ more, IsName part) (hne : more ≠ []) :
    join first (fromSegments more) = slash :: fromSegments (climb false (segments first) ++ more) := by
  have hmore := fromSegments_ne_nil h hne
  have hfirst : first ≠ [] := by
    rintro rfl
    cases habsolute
  have hsplit : segments (first ++ slash :: fromSegments more) = segments first ++ more := by
    rw [segments, List.splitOn_append_cons_self]
    congr 1
    exact List.splitOn_intercalate slash (fun part hpart => (h part hpart).slash_notMem) hne
  have hclimb : climb false (segments (first ++ slash :: fromSegments more)) =
      climb false (segments first) ++ more := by
    rw [hsplit, climb, List.foldl_append, foldl_names h, List.reverse_append, List.reverse_reverse]
    rfl
  rw [join, if_neg hfirst, if_neg hmore, normalize_absolute, hclimb]
  · cases first with
    | nil => exact absurd rfl hfirst
    | cons u first => exact habsolute
  · rw [hclimb]
    simp [hne]
  · have hlast := fromSegments_getLast h hne
    rw [List.getLast?_append, List.getLast?_cons]
    cases hcase : (fromSegments more).getLast? with
    | none => exact absurd (List.getLast?_eq_none_iff.1 hcase) hmore
    | some u => simpa [hcase] using hlast

theorem way_append (parts more : List Units) : way parts (parts ++ more) = more := by
  induction parts with
  | nil => cases more <;> simp [way]
  | cons part parts ih => simp [way, ih]

theorem relative_append {parts more : List Units} (hparts : ∀ part ∈ parts, IsName part)
    (hmore : ∀ part ∈ more, IsName part) (hne : parts ≠ []) :
    relative (slash :: fromSegments parts) (slash :: fromSegments (parts ++ more)) =
      fromSegments more := by
  have hall : ∀ part ∈ parts ++ more, IsName part := by
    intro part hpart
    exact (List.mem_append.1 hpart).elim (hparts part) (hmore part)
  rw [relative, resolved_absolute hparts hne, resolved_absolute hall (by simp [hne]), way_append]

end Posix
