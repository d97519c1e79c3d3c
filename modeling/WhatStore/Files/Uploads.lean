import WhatStore.Files.Paths

/-!
# Uploaded images

`uploads.util` and `upload-url.util`: which addresses of images a store may write
to its rows, and which files go when an address is no longer used. Both sides ask
the same: a name of the tenant's own folder.
-/

namespace WhatStore.Uploads

open Text Posix

/-- `join(process.cwd(), 'uploads')`. -/
def uploadsRoot (cwd : Units) : Units := join cwd (unitsOf "uploads")

/-- `[0-9a-zA-Z_-]`. -/
def isFileUnit (u : UInt16) : Bool :=
  (unit '0' ≤ u ∧ u ≤ unit '9') ∨ (unit 'a' ≤ u ∧ u ≤ unit 'z') ∨ (unit 'A' ≤ u ∧ u ≤ unit 'Z') ∨
    u = unit '_' ∨ u = unit '-'

/-- `/^[0-9a-zA-Z_-]+\.webp$/`. -/
def localUploadFile (file : Units) : Bool :=
  let base := file.take (file.length - (unitsOf ".webp").length)
  (unitsOf ".webp").isSuffixOf file && base != [] && base.all isFileUnit

def ownPrefix (tenantId : Units) : Units := unitsOf "/uploads/" ++ tenantId ++ unitsOf "/"

def isOwnUploadUrl (tenantId url : Units) : Bool :=
  (ownPrefix tenantId).isPrefixOf url && localUploadFile (url.drop (ownPrefix tenantId).length)

/-- `protocol` is that of the address where it is one, as `new URL` reads it. -/
def assertSafeImageUrl (protocol : Units → Option Units) (tenantId : Units) (url : Option Units)
    (field : Units) : Except Units Unit :=
  match url.filter (· ≠ []) with
  | none => .ok ()
  | some url =>
      if (unitsOf "/").isPrefixOf url then
        if isOwnUploadUrl tenantId url then .ok ()
        else .error (field ++ unitsOf " must be one of your own uploads")
      else if protocol url = some (unitsOf "http:") ∨ protocol url = some (unitsOf "https:") then .ok ()
      else .error (field ++ unitsOf " must be an uploaded image or an http(s) URL")

def deleteUploadedFile (root : Units) (existsSync : Units → Bool) (url tenantId : Option Units) :
    Option Units :=
  match url with
  | none => none
  | some url =>
      if !(unitsOf "/uploads/").isPrefixOf url then none
      else if (tenantId.filter (· ≠ [])).any fun tenantId => !isOwnUploadUrl tenantId url then none
      else
        let absolute := join root (url.drop (unitsOf "/uploads/").length)
        let rel := relative root absolute
        if rel = [] ∨ (unitsOf "..").isPrefixOf rel ∨ isAbsolute rel then none
        else if !existsSync absolute then none
        else some absolute

/-! ## Names of the folder -/

def isHexUnit (u : UInt16) : Bool :=
  (unit '0' ≤ u ∧ u ≤ unit '9') ∨ (unit 'a' ≤ u ∧ u ≤ unit 'f') ∨ (unit 'A' ≤ u ∧ u ≤ unit 'F')

def IsUuid (id : Units) : Prop :=
  (id.splitOn (unit '-')).map List.length = [8, 4, 4, 4, 12] ∧
    ∀ group ∈ id.splitOn (unit '-'), ∀ u ∈ group, isHexUnit u = true

/-- Directly in the folder of the tenant, under a name that ends in `.webp`. -/
def InFolder (cwd tenantId path : Units) : Prop :=
  ∃ name, IsName name ∧ unitsOf ".webp" <:+ name ∧
    path = uploadsRoot cwd ++ slash :: (tenantId ++ slash :: name)

theorem IsUuid.notMem {id : Units} (h : IsUuid id) {u : UInt16} (hhex : isHexUnit u = false)
    (hdash : u ≠ unit '-') : u ∉ id := by
  intro hmem
  have hjoin : [unit '-'].intercalate (id.splitOn (unit '-')) = id := List.intercalate_splitOn _
  rw [← hjoin] at hmem
  obtain ⟨group, hgroup, hu⟩ := mem_of_mem_intercalate hdash hmem
  rw [h.2 group hgroup u hu] at hhex
  cases hhex

theorem IsUuid.isName {id : Units} (h : IsUuid id) : IsName id := by
  constructor
  · rintro rfl
    exact absurd h.1 (by decide)
  · rintro rfl
    exact absurd h.1 (by decide)
  · rintro rfl
    exact absurd h.1 (by decide)
  · exact h.notMem (by decide) (by decide)

theorem localUploadFile_name {file : Units} (h : localUploadFile file = true) :
    IsName file ∧ unitsOf ".webp" <:+ file := by
  simp only [localUploadFile, Bool.and_eq_true, List.isSuffixOf_iff_suffix, bne_iff_ne] at h
  obtain ⟨⟨hsuffix, -⟩, hall⟩ := h
  obtain ⟨base, rfl⟩ := hsuffix
  rw [List.length_append, Nat.add_sub_cancel, List.take_left] at hall
  have hslash : slash ∉ base := by
    intro hmem
    exact absurd (List.all_eq_true.1 hall slash hmem) (by decide)
  have hlength : 5 ≤ (base ++ unitsOf ".webp").length := by
    rw [List.length_append]
    exact Nat.le_add_left 5 _
  refine ⟨⟨?_, ?_, ?_, ?_⟩, base, rfl⟩
  · intro heq
    simp [heq] at hlength
  · intro heq
    rw [heq] at hlength
    exact absurd hlength (by decide)
  · intro heq
    rw [heq] at hlength
    exact absurd hlength (by decide)
  · rw [List.mem_append, not_or]
    exact ⟨hslash, by decide⟩

theorem exists_of_isOwnUploadUrl {tenantId url : Units} (h : isOwnUploadUrl tenantId url = true) :
    ∃ name, url = unitsOf "/uploads/" ++ (tenantId ++ slash :: name) ∧ IsName name ∧
      unitsOf ".webp" <:+ name := by
  simp only [isOwnUploadUrl, Bool.and_eq_true, List.isPrefixOf_iff_prefix] at h
  obtain ⟨⟨name, rfl⟩, hfile⟩ := h
  rw [List.drop_left] at hfile
  obtain ⟨hname, hsuffix⟩ := localUploadFile_name hfile
  refine ⟨name, ?_, hname, hsuffix⟩
  rw [ownPrefix, show unitsOf "/" = [slash] from rfl]
  simp

/-! ## Where the files lie -/

def rootParts (cwd : Units) : List Units := climb false (segments cwd) ++ [unitsOf "uploads"]

theorem isName_uploads : IsName (unitsOf "uploads") :=
  ⟨by decide, by decide, by decide, by decide⟩

theorem rootParts_names (cwd : Units) : ∀ part ∈ rootParts cwd, IsName part := by
  intro part hpart
  rcases List.mem_append.1 hpart with hpart | hpart
  · exact climb_isName slash_notMem_segments part hpart
  · rw [List.mem_singleton.1 hpart]
    exact isName_uploads

theorem rootParts_ne_nil (cwd : Units) : rootParts cwd ≠ [] := by
  simp [rootParts]

section

variable {cwd tenantId : Units} (hcwd : isAbsolute cwd = true)
include hcwd

theorem uploadsRoot_eq : uploadsRoot cwd = slash :: fromSegments (rootParts cwd) := by
  have hjoin := @join_absolute cwd hcwd [unitsOf "uploads"]
    (fun part hpart => List.mem_singleton.1 hpart ▸ isName_uploads) (by simp)
  rwa [show fromSegments [unitsOf "uploads"] = unitsOf "uploads" from rfl] at hjoin

variable (hid : IsName tenantId)
include hid

theorem join_root {name : Units} (hname : IsName name) :
    join (uploadsRoot cwd) (tenantId ++ slash :: name) =
        slash :: fromSegments (rootParts cwd ++ [tenantId, name]) ∧
      join (uploadsRoot cwd) (tenantId ++ slash :: name) =
        uploadsRoot cwd ++ slash :: (tenantId ++ slash :: name) := by
  have hmore : ∀ part ∈ [tenantId, name], IsName part := by
    simp [hid, hname]
  have habsolute : isAbsolute (uploadsRoot cwd) = true := by
    rw [uploadsRoot_eq hcwd]
    rfl
  have hsegments : climb false (segments (uploadsRoot cwd)) = rootParts cwd := by
    rw [uploadsRoot_eq hcwd]
    exact resolved_absolute (rootParts_names cwd) (rootParts_ne_nil cwd)
  have hjoin := join_absolute habsolute hmore (by simp)
  have htext : fromSegments [tenantId, name] = tenantId ++ slash :: name := by
    simp [fromSegments]
  rw [htext, hsegments] at hjoin
  refine ⟨hjoin, ?_⟩
  rw [hjoin, uploadsRoot_eq hcwd, fromSegments_append (rootParts_ne_nil cwd) (by simp), htext]
  rfl

theorem relative_root {name : Units} (hname : IsName name) :
    relative (uploadsRoot cwd) (slash :: fromSegments (rootParts cwd ++ [tenantId, name])) =
      tenantId ++ slash :: name := by
  have hmore : ∀ part ∈ [tenantId, name], IsName part := by
    simp [hid, hname]
  rw [uploadsRoot_eq hcwd, relative_append (rootParts_names cwd) hmore (rootParts_ne_nil cwd)]
  simp [fromSegments]

end

section Contained

variable {cwd tenantId : Units} (hcwd : isAbsolute cwd = true) (hid : IsUuid tenantId)
include hcwd hid

/-- Of an own upload the file is removed that its address names, if it is there. -/
theorem deleteUploadedFile_own (existsSync : Units → Bool) {name : Units} (hname : IsName name)
    (hown : isOwnUploadUrl tenantId (unitsOf "/uploads/" ++ (tenantId ++ slash :: name)) = true) :
    deleteUploadedFile (uploadsRoot cwd) existsSync
        (some (unitsOf "/uploads/" ++ (tenantId ++ slash :: name))) (some tenantId) =
      if existsSync (uploadsRoot cwd ++ slash :: (tenantId ++ slash :: name)) then
        some (uploadsRoot cwd ++ slash :: (tenantId ++ slash :: name))
      else none := by
  obtain ⟨hjoin, htext⟩ := join_root hcwd hid.isName hname
  have hrelative := relative_root hcwd hid.isName hname
  have hpre : (unitsOf "/uploads/").isPrefixOf (unitsOf "/uploads/" ++ (tenantId ++ slash :: name)) =
      true :=
    List.isPrefixOf_iff_prefix.2 (List.prefix_append _ _)
  obtain ⟨u, rest, hcons⟩ := List.exists_cons_of_ne_nil hid.isName.ne_nil
  have hdot : u ≠ unit '.' := by
    rintro rfl
    exact hid.notMem (u := unit '.') (by decide) (by decide) (by simp [hcons])
  have hslash : u ≠ slash := by
    rintro rfl
    exact hid.isName.slash_notMem (by simp [hcons])
  have hinside : ¬ (tenantId ++ slash :: name = [] ∨
      (unitsOf "..").isPrefixOf (tenantId ++ slash :: name) = true ∨
        isAbsolute (tenantId ++ slash :: name) = true) := by
    rw [hcons]
    simp only [List.cons_append, isAbsolute, List.head?_cons, Option.some.injEq, decide_eq_true_eq,
      hslash, or_false, reduceCtorEq, false_or]
    intro hdots
    have heq : (unit '.' == u) = true := by
      simp only [show unitsOf ".." = [unit '.', unit '.'] from rfl, List.isPrefixOf, Bool.and_eq_true] at hdots
      exact hdots.1
    exact hdot (beq_iff_eq.1 heq).symm
  have htenant : (Option.filter (fun id => decide (id ≠ [])) (some tenantId)).any
      (fun tenantId' => !isOwnUploadUrl tenantId' (unitsOf "/uploads/" ++ (tenantId ++ slash :: name))) =
        false := by
    simp [Option.filter, hid.isName.ne_nil, hown]
  have hdrop : (unitsOf "/uploads/" ++ (tenantId ++ slash :: name)).drop (unitsOf "/uploads/").length =
      tenantId ++ slash :: name := List.drop_left
  rw [deleteUploadedFile]
  simp only [hpre, Bool.not_true, Bool.false_eq_true, if_false, htenant, hdrop]
  rw [← htext, hjoin, hrelative, if_neg hinside]
  cases existsSync (slash :: fromSegments (rootParts cwd ++ [tenantId, name])) <;> rfl

/-- What is removed for a tenant lies in the folder of the tenant, and so does what an address
names that may be stored for the tenant and is one of this server. -/
theorem uploads_contained :
    (∀ existsSync url path, deleteUploadedFile (uploadsRoot cwd) existsSync url (some tenantId) =
        some path → InFolder cwd tenantId path) ∧
      ∀ protocol url field, assertSafeImageUrl protocol tenantId (some url) field = .ok () →
        unitsOf "/" <+: url → unitsOf "/uploads/" <+: url ∧
          InFolder cwd tenantId (join (uploadsRoot cwd) (url.drop (unitsOf "/uploads/").length)) := by
  constructor
  · intro existsSync url path h
    have hown : ∃ text, url = some text ∧ isOwnUploadUrl tenantId text = true := by
      cases url with
      | none => cases h
      | some text =>
          refine ⟨text, rfl, ?_⟩
          by_contra hnot
          rw [deleteUploadedFile] at h
          simp [Option.filter, hid.isName.ne_nil, hnot] at h
    obtain ⟨text, rfl, hown⟩ := hown
    obtain ⟨name, rfl, hname, hsuffix⟩ := exists_of_isOwnUploadUrl hown
    rw [deleteUploadedFile_own hcwd hid existsSync hname hown] at h
    split at h
    · cases h
      exact ⟨name, hname, hsuffix, rfl⟩
    · cases h
  · intro protocol url field h hslash
    have hne : url ≠ [] := by
      rintro rfl
      simp [unitsOf] at hslash
    have hown : isOwnUploadUrl tenantId url = true := by
      rw [assertSafeImageUrl] at h
      simp only [Option.filter, hne, ne_eq, not_false_eq_true, decide_true, if_true,
        List.isPrefixOf_iff_prefix.2 hslash] at h
      by_contra hnot
      rw [if_neg hnot] at h
      cases h
    obtain ⟨name, rfl, hname, hsuffix⟩ := exists_of_isOwnUploadUrl hown
    refine ⟨List.prefix_append _ _, name, hname, hsuffix, ?_⟩
    rw [List.drop_left]
    exact (join_root hcwd hid.isName hname).2

end Contained

theorem uploads_contained_webp :
    InFolder (unitsOf "/srv/app") (unitsOf "6f1c2d7a-0b3e-4c58-9a61-d2e4f5a6b7c8")
      (unitsOf "/srv/app/uploads/6f1c2d7a-0b3e-4c58-9a61-d2e4f5a6b7c8/mug.webp") := by
  have hid : IsUuid (unitsOf "6f1c2d7a-0b3e-4c58-9a61-d2e4f5a6b7c8") :=
    ⟨by decide +kernel, by decide +kernel⟩
  exact (uploads_contained (by decide) hid).1 (fun _ => true)
    (some (unitsOf "/uploads/6f1c2d7a-0b3e-4c58-9a61-d2e4f5a6b7c8/mug.webp")) _ (by decide +kernel)

end WhatStore.Uploads
