import WhatStore.Shop.Rows
import WhatStore.Text.Strings
import Mathlib.Data.List.Sort

/-!
# Backups that are kept

`BackupsService.run` uploads a backup and prunes the bucket: of the backups in
it, sorted by age, the newest `retentionCount` stay. The count is parsed from the
environment and goes unchecked into `slice`, which reads what is not a number as
zero and counts a negative number from the end.
-/

namespace WhatStore.Backups

open Text

/-! ## The bucket -/

structure S3Object where
  key : Chars
  lastModified : Time
  deriving DecidableEq

structure Bucket where
  objects : List S3Object
  keys_nodup : (objects.map S3Object.key).Nodup

/-- `PutObjectCommand`: an object under the key is replaced. -/
def Bucket.put (bucket : Bucket) (object : S3Object) : Bucket where
  objects := object :: bucket.objects.filter fun o => o.key ≠ object.key
  keys_nodup := by
    rw [List.map_cons, List.nodup_cons]
    constructor
    · intro hmem
      obtain ⟨o, ho, hkey⟩ := List.mem_map.1 hmem
      simpa [hkey] using (List.mem_filter.1 ho).2
    · exact (List.filter_sublist.map _).nodup bucket.keys_nodup

/-- `DeleteObjectCommand`. -/
def Bucket.delete (bucket : Bucket) (key : Chars) : Bucket where
  objects := bucket.objects.filter fun o => o.key ≠ key
  keys_nodup := (List.filter_sublist.map _).nodup bucket.keys_nodup

/-- An entry of `ListObjectsV2Command`. -/
structure Listed where
  Key : Chars
  LastModified : Option Time
  deriving DecidableEq

/-- The objects whose keys start with the prefix of the backups. -/
def Bucket.backups (bucket : Bucket) (s3Prefix : Chars) : List S3Object :=
  bucket.objects.filter fun o => (s3Prefix ++ ['/']).isPrefixOf o.key

/-- The pages of a listing show the backups there are, in any order. -/
def Bucket.Shows (bucket : Bucket) (s3Prefix : Chars) (pages : List (List Listed)) : Prop :=
  pages.flatten.Perm
    ((bucket.backups s3Prefix).map fun o => { Key := o.key, LastModified := some o.lastModified })

/-! ## Retention -/

/-- `parseInt(process.env.BACKUP_RETENTION_COUNT ?? '14', 10)`, if it is a number. -/
def retentionCount (setting : Option Chars) : Option ℤ := parseInt (setting.getD "14".toList)

/-- Where `slice(start)` starts in a list of this length. -/
def sliceStart (length : Nat) : Option ℤ → Nat
  | none => 0
  | some start => if start < 0 then (length + start).toNat else min start.toNat length

def slice {α : Type} (list : List α) (start : Option ℤ) : List α :=
  list.drop (sliceStart list.length start)

def newestFirst (objects : List S3Object) : List S3Object :=
  objects.insertionSort fun a b => b.lastModified ≤ a.lastModified

def selectStaleKeys (objects : List S3Object) (retentionCount : Option ℤ) : List Chars :=
  (slice (newestFirst objects) retentionCount).map S3Object.key

def listAllObjects (pages : List (List Listed)) : List Listed :=
  pages.foldl (fun all page => all ++ page) []

def pruneOld (bucket : Bucket) (pages : List (List Listed)) (retentionCount : Option ℤ) : Bucket :=
  let objects := listAllObjects pages
  (selectStaleKeys (objects.map fun o => ⟨o.Key, o.LastModified.getD 0⟩) retentionCount).foldl
    Bucket.delete bucket

/-- The key of a backup, by the time of the run with `:` and `.` replaced. -/
def backupKey (s3Prefix stamp : Chars) : Chars :=
  s3Prefix ++ "/yws-".toList ++ stamp ++ ".dump".toList

/-- A run that gets as far as the pruning, with what the store of objects shows it. -/
def run (bucket : Bucket) (s3Prefix stamp : Chars) (now : Time) (pages : List (List Listed))
    (setting : Option Chars) : Bucket :=
  pruneOld (bucket.put ⟨backupKey s3Prefix stamp, now⟩) pages (retentionCount setting)

/-- The run kept the backup it uploaded, so at least one, and with a positive count exactly
that many, each newer than all it deleted. -/
structure Retained (s3Prefix : Chars) (uploaded : S3Object) (count : Option ℤ)
    (before after : Bucket) : Prop where
  uploaded_kept : uploaded ∈ after.backups s3Prefix
  some_kept : after.backups s3Prefix ≠ []
  newest_kept : ∀ n : ℕ, 0 < n → count = some ↑n →
    (after.backups s3Prefix).length = min (before.backups s3Prefix).length n ∧
      ∀ kept ∈ after.backups s3Prefix, ∀ deleted ∈ before.backups s3Prefix,
        deleted ∉ after.backups s3Prefix → deleted.lastModified < kept.lastModified

/-! ## What pruning leaves -/

theorem filter_notMem_drop {α β : Type} [BEq β] [LawfulBEq β] {f : α → β} {list : List α}
    (hnodup : (list.map f).Nodup) (m : Nat) :
    (list.filter fun a => f a ∉ (list.drop m).map f) = list.take m := by
  have hsplit : (list.take m ++ list.drop m).map f = list.map f := by rw [List.take_append_drop]
  rw [← hsplit, List.map_append, List.nodup_append] at hnodup
  have hkept : (list.take m).filter (fun a => f a ∉ (list.drop m).map f) = list.take m := by
    apply List.filter_eq_self.2
    intro a ha
    have hout : f a ∉ (list.drop m).map f := fun hmem =>
      hnodup.2.2 _ (List.mem_map_of_mem ha) _ hmem rfl
    simpa using hout
  have hgone : (list.drop m).filter (fun a => f a ∉ (list.drop m).map f) = [] := by
    apply List.filter_eq_nil_iff.2
    intro a ha
    have hin : f a ∈ (list.drop m).map f := List.mem_map_of_mem ha
    simpa using hin
  conv_lhs => rw [← List.take_append_drop m list, List.filter_append]
  rw [List.take_append_drop, hkept, hgone, List.append_nil]

theorem objects_foldl_delete (keys : List Chars) (bucket : Bucket) :
    (keys.foldl Bucket.delete bucket).objects =
      bucket.objects.filter fun o => o.key ∉ keys := by
  induction keys generalizing bucket with
  | nil => simp
  | cons key keys ih =>
      rw [List.foldl_cons, ih, Bucket.delete, List.filter_filter]
      apply List.filter_congr
      intro o _
      by_cases hkey : o.key = key <;> simp [hkey]

theorem listAllObjects_eq (pages : List (List Listed)) : listAllObjects pages = pages.flatten := by
  simpa [listAllObjects] using @List.foldl_append_eq_append _ _ pages id []

section Prune

variable {bucket : Bucket} {s3Prefix : Chars} {pages : List (List Listed)}

theorem Bucket.Shows.perm (h : bucket.Shows s3Prefix pages) :
    ((listAllObjects pages).map fun o => (⟨o.Key, o.LastModified.getD 0⟩ : S3Object)).Perm
      (bucket.backups s3Prefix) := by
  rw [listAllObjects_eq]
  refine (h.map _).trans ?_
  rw [List.map_map]
  exact .of_eq (List.map_id _)

def sorted (pages : List (List Listed)) : List S3Object :=
  newestFirst ((listAllObjects pages).map fun o => ⟨o.Key, o.LastModified.getD 0⟩)

theorem Bucket.Shows.sorted_perm (h : bucket.Shows s3Prefix pages) :
    (sorted pages).Perm (bucket.backups s3Prefix) :=
  (List.perm_insertionSort _ _).trans h.perm

/-- Pruning leaves a first part of the backups by age. -/
theorem pruneOld_perm (h : bucket.Shows s3Prefix pages) (count : Option ℤ) :
    ((pruneOld bucket pages count).backups s3Prefix).Perm
      ((sorted pages).take (sliceStart (sorted pages).length count)) := by
  have hkeys : ((sorted pages).map S3Object.key).Nodup := by
    rw [(h.sorted_perm.map _).nodup_iff]
    exact (List.filter_sublist.map _).nodup bucket.keys_nodup
  rw [← filter_notMem_drop hkeys]
  have hleft : (pruneOld bucket pages count).backups s3Prefix =
      (bucket.backups s3Prefix).filter fun o => o.key ∉
        ((sorted pages).drop (sliceStart (sorted pages).length count)).map S3Object.key := by
    rw [Bucket.backups, pruneOld, objects_foldl_delete, Bucket.backups, List.filter_comm]
    rfl
  rw [hleft]
  exact (h.sorted_perm.filter _).symm

theorem sorted_pairwise (h : bucket.Shows s3Prefix pages)
    (hdistinct : ((bucket.backups s3Prefix).map S3Object.lastModified).Nodup) :
    (sorted pages).Pairwise fun a b => b.lastModified < a.lastModified := by
  have htotal : Std.Total fun a b : S3Object => b.lastModified ≤ a.lastModified :=
    ⟨fun a b => le_total _ _⟩
  have htrans : IsTrans S3Object fun a b => b.lastModified ≤ a.lastModified :=
    ⟨fun a b c hab hbc => hbc.trans hab⟩
  have hle : (sorted pages).Pairwise fun a b => b.lastModified ≤ a.lastModified :=
    List.pairwise_insertionSort _ _
  rw [← (h.sorted_perm.map _).nodup_iff, List.Nodup, List.pairwise_map] at hdistinct
  exact hle.imp₂ (fun a b hab hne => lt_of_le_of_ne hab hne.symm) hdistinct

theorem sorted_eq_cons (h : bucket.Shows s3Prefix pages) {newest : S3Object}
    (hmem : newest ∈ bucket.backups s3Prefix)
    (hnewest : ∀ o ∈ bucket.backups s3Prefix, o ≠ newest → o.lastModified < newest.lastModified)
    (hdistinct : ((bucket.backups s3Prefix).map S3Object.lastModified).Nodup) :
    ∃ older, sorted pages = newest :: older := by
  have hsorted := sorted_pairwise h hdistinct
  have hperm := h.sorted_perm
  cases hlist : sorted pages with
  | nil =>
      rw [hlist] at hperm
      exact absurd (hperm.mem_iff.2 hmem) (List.not_mem_nil)
  | cons first older =>
      rw [hlist] at hperm hsorted
      refine ⟨older, ?_⟩
      by_contra hne
      have hfirst : first ≠ newest := fun heq => hne (heq ▸ rfl)
      have hlater := hnewest first (hperm.mem_iff.1 List.mem_cons_self) hfirst
      rcases List.mem_cons.1 (hperm.mem_iff.2 hmem) with rfl | hin
      · exact hfirst rfl
      · exact absurd (List.rel_of_pairwise_cons hsorted hin) hlater.le.not_gt

/-- Of a listing that is sorted by age, what the run keeps is newer than what it deletes. -/
theorem newest_kept (h : bucket.Shows s3Prefix pages)
    (hdistinct : ((bucket.backups s3Prefix).map S3Object.lastModified).Nodup) (count : Option ℤ)
    {kept deleted : S3Object} (hkept : kept ∈ (pruneOld bucket pages count).backups s3Prefix)
    (hdeleted : deleted ∈ bucket.backups s3Prefix)
    (hgone : deleted ∉ (pruneOld bucket pages count).backups s3Prefix) :
    deleted.lastModified < kept.lastModified := by
  have hperm := pruneOld_perm h count
  have hsorted := sorted_pairwise h hdistinct
  rw [hperm.mem_iff] at hkept hgone
  rw [← h.sorted_perm.mem_iff] at hdeleted
  have hsplit := List.take_append_drop (sliceStart (sorted pages).length count) (sorted pages)
  rw [← hsplit] at hsorted hdeleted
  have hdrop := (List.mem_append.1 hdeleted).resolve_left hgone
  exact (List.pairwise_append.1 hsorted).2.2 _ hkept _ hdrop

theorem retained_iff_start (h : bucket.Shows s3Prefix pages) {newest : S3Object}
    (hmem : newest ∈ bucket.backups s3Prefix)
    (hnewest : ∀ o ∈ bucket.backups s3Prefix, o ≠ newest → o.lastModified < newest.lastModified)
    (hdistinct : ((bucket.backups s3Prefix).map S3Object.lastModified).Nodup)
    (count : Option ℤ) :
    Retained s3Prefix newest count bucket (pruneOld bucket pages count) ↔
      0 < sliceStart (bucket.backups s3Prefix).length count := by
  have hperm := pruneOld_perm h count
  obtain ⟨older, hfirst⟩ := sorted_eq_cons h hmem hnewest hdistinct
  rw [← h.sorted_perm.length_eq]
  constructor
  · intro hretained
    by_contra hzero
    rw [Nat.pos_iff_ne_zero, not_not] at hzero
    rw [hzero, List.take_zero, List.perm_nil] at hperm
    exact hretained.some_kept hperm
  · intro hpos
    have hkept : newest ∈ (pruneOld bucket pages count).backups s3Prefix := by
      obtain ⟨m, hm⟩ := Nat.exists_eq_add_one_of_ne_zero hpos.ne'
      rw [hperm.mem_iff, hm, hfirst]
      exact List.mem_cons_self
    refine ⟨hkept, List.ne_nil_of_mem hkept, ?_⟩
    intro n hn hcount
    constructor
    · rw [hperm.length_eq, List.length_take, h.sorted_perm.length_eq, hcount, sliceStart]
      simp only [Int.toNat_natCast]
      split <;> omega
    · intro kept hkept deleted hdeleted hgone
      exact newest_kept h hdistinct count hkept hdeleted hgone

end Prune

theorem sliceStart_pos {n : Nat} (hn : 0 < n) {count : Option ℤ} :
    0 < sliceStart n count ↔ ∃ r, count = some r ∧ (0 < r ∨ r < 0 ∧ -r < n) := by
  cases count with
  | none => simp [sliceStart]
  | some r =>
      rw [sliceStart]
      constructor
      · intro h
        refine ⟨r, rfl, ?_⟩
        split at h <;> omega
      · rintro ⟨r', heq, h⟩
        cases heq
        split <;> omega

/-- **Retention.** A run keeps the backup it has uploaded, and with a positive count the newest
ones, exactly when the setting parses to a positive count, or to a negative number smaller in
size than the number of backups. -/
theorem retention_iff {bucket : Bucket} {s3Prefix stamp : Chars} {now : Time}
    {pages : List (List Listed)} (setting : Option Chars)
    (hlater : ∀ o ∈ bucket.objects, o.lastModified < now)
    (hdistinct : ((bucket.backups s3Prefix).map S3Object.lastModified).Nodup)
    (hpages : (bucket.put ⟨backupKey s3Prefix stamp, now⟩).Shows s3Prefix pages) :
    Retained s3Prefix ⟨backupKey s3Prefix stamp, now⟩ (retentionCount setting)
        (bucket.put ⟨backupKey s3Prefix stamp, now⟩)
        (run bucket s3Prefix stamp now pages setting) ↔
      ∃ r, retentionCount setting = some r ∧ (0 < r ∨ r < 0 ∧
        -r < ((bucket.put ⟨backupKey s3Prefix stamp, now⟩).backups s3Prefix).length) := by
  have hbackups : (bucket.put ⟨backupKey s3Prefix stamp, now⟩).backups s3Prefix =
      ⟨backupKey s3Prefix stamp, now⟩ ::
        (bucket.backups s3Prefix).filter fun o => o.key ≠ backupKey s3Prefix stamp := by
    rw [Bucket.backups, Bucket.put, List.filter_cons_of_pos (by simp [backupKey]),
      List.filter_comm]
    rfl
  have hold : ∀ o ∈ (bucket.put ⟨backupKey s3Prefix stamp, now⟩).backups s3Prefix,
      o ≠ ⟨backupKey s3Prefix stamp, now⟩ → o.lastModified < now := by
    intro o ho hne
    rw [hbackups, List.mem_cons] at ho
    exact hlater o (List.mem_filter.1 (List.mem_filter.1 (ho.resolve_left hne)).1).1
  have hmem : ⟨backupKey s3Prefix stamp, now⟩ ∈
      (bucket.put ⟨backupKey s3Prefix stamp, now⟩).backups s3Prefix :=
    hbackups ▸ List.mem_cons_self
  rw [run, retained_iff_start hpages hmem hold, sliceStart_pos (List.length_pos_of_mem hmem)]
  rw [hbackups, List.map_cons, List.nodup_cons]
  constructor
  · intro hin
    obtain ⟨o, ho, htime⟩ := List.mem_map.1 hin
    exact (hlater o (List.mem_filter.1 (List.mem_filter.1 ho).1).1).ne htime
  · exact (List.filter_sublist.map _).nodup hdistinct

/-! ### A bucket with two backups -/

def nightly : Bucket where
  objects := [⟨"db/yws-1.dump".toList, 10⟩, ⟨"db/yws-2.dump".toList, 20⟩]
  keys_nodup := by decide

def nightlyPages : List (List Listed) :=
  [[⟨"db/yws-1.dump".toList, some 10⟩, ⟨"db/yws-2.dump".toList, some 20⟩],
    [⟨"db/yws-3.dump".toList, some 30⟩]]

theorem nightly_shown : (nightly.put ⟨backupKey "db".toList ['3'], 30⟩).Shows "db".toList
    nightlyPages := by
  unfold Bucket.Shows
  decide

theorem nightly_later : ∀ o ∈ nightly.objects, o.lastModified < 30 := by decide

theorem nightly_distinct :
    ((nightly.backups "db".toList).map S3Object.lastModified).Nodup := by decide

/-- With the setting `2` the newest two of three are kept. -/
theorem retention_two : Retained "db".toList ⟨backupKey "db".toList ['3'], 30⟩ (some 2)
    (nightly.put ⟨backupKey "db".toList ['3'], 30⟩)
    (run nightly "db".toList ['3'] 30 nightlyPages (some ['2'])) :=
  (retention_iff (some ['2']) nightly_later nightly_distinct nightly_shown).2
    ⟨2, by decide, by decide⟩

/-- With the variable set to nothing, every backup is deleted. -/
theorem retention_unset :
    ¬ ∀ (bucket : Bucket) (s3Prefix stamp : Chars) (now : Time) (pages : List (List Listed))
      (setting : Option Chars), (∀ o ∈ bucket.objects, o.lastModified < now) →
      ((bucket.backups s3Prefix).map S3Object.lastModified).Nodup →
      (bucket.put ⟨backupKey s3Prefix stamp, now⟩).Shows s3Prefix pages →
        Retained s3Prefix ⟨backupKey s3Prefix stamp, now⟩ (retentionCount setting)
          (bucket.put ⟨backupKey s3Prefix stamp, now⟩)
          (run bucket s3Prefix stamp now pages setting) := by
  intro hclaim
  have hretained := hclaim nightly "db".toList ['3'] 30 nightlyPages (some []) nightly_later
    nightly_distinct nightly_shown
  exact hretained.some_kept (by decide)

end WhatStore.Backups
