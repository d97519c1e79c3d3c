import WhatStore.Arithmetic.Numbering
import WhatStore.Catalog.Rules
import WhatStore.Catalog.Forest

/-!
# The tree of category templates

Every template is to hang from a root, since the tree is built from the flat list by
following `parentId`. Creating a template adds a leaf and removing one cuts its children
off, which keeps the tree. `update` only refuses a template as its own parent: a template
moved under one of its own descendants closes a cycle, and nothing else does.
-/

namespace WhatStore.Catalog

open ReadCommitted ReadCommitted.Prog ParentForest CategoryTemplatesService

variable {answer : Answers catalog} {db db' : Database} {id p x : Id}

/-! ## Parents -/

def parentOf (db : Database) (id : Id) : Option Id :=
  (db.row (.template id)).bind fun t : CategoryTemplate => t.parentId

def Stored (db : Database) (id : Id) : Prop := ∃ t, db.row (.template id) = some t

/-- Parents are stored, as the foreign key has it, and lead to a root. -/
structure Sound (db : Database) : Prop where
  closed : ∀ id p, parentOf db id = some p → Stored db p
  rooted : ∀ id, Rooted (parentOf db) id

theorem parentOf_of_row {t : CategoryTemplate} (h : db.row (.template id) = some t) :
    parentOf db id = t.parentId := by
  simp [parentOf, h]

theorem stored_of_parent (h : parentOf db id = some p) : Stored db id := by
  obtain ⟨t, ht, -⟩ := Option.bind_eq_some_iff.1 h
  exact ⟨t, ht⟩

theorem template_ne (h : x ≠ id) : Key.template x ≠ Key.template id := by simpa using h

theorem parentOf_set (db : Database) (id : Id) (v : Option CategoryTemplate) :
    parentOf (db.set (.template id) v) =
      Function.update (parentOf db) id (v.bind CategoryTemplate.parentId) := by
  funext x
  by_cases hx : x = id
  · subst hx
    rw [Function.update_self, parentOf, Store.set_row_self]
  · rw [Function.update_of_ne hx, parentOf, Store.set_row_of_ne (k := .template id) db v (template_ne hx)]
    rfl

theorem stored_set {v : Option CategoryTemplate} (h : Stored db x) (hx : x ≠ id) :
    Stored (db.set (.template id) v) x := by
  obtain ⟨t, ht⟩ := h
  exact ⟨t, (Store.set_row_of_ne (k := .template id) db v (template_ne hx)).trans ht⟩

theorem Sound.set_parent (h : Sound db) (t : CategoryTemplate) (ht : t.parentId = some p)
    (hp : Stored db p) (hbelow : ¬ Reaches (parentOf db) p id) :
    Sound (db.set (.template id) (some t)) := by
  have hparents : parentOf (db.set (.template id) (some t)) =
      Function.update (parentOf db) id (some p) := by
    rw [parentOf_set, ← ht]
    rfl
  have hstored : ∀ x, Stored db x → Stored (db.set (.template id) (some t)) x := by
    intro x hx
    by_cases hxid : x = id
    · subst hxid
      exact ⟨t, Store.set_row_self ..⟩
    · exact stored_set hx hxid
  constructor
  · intro x q hq
    apply hstored
    rw [hparents] at hq
    by_cases hx : x = id
    · subst hx
      rw [Function.update_self] at hq
      cases hq
      exact hp
    · rw [Function.update_of_ne hx] at hq
      exact h.closed x q hq
  · intro x
    rw [hparents]
    exact rooted_update h.rooted hbelow x

theorem Sound.set_cut (h : Sound db) (t : CategoryTemplate)
    (ht : t.parentId = parentOf db id ∨ t.parentId = none) :
    Sound (db.set (.template id) (some t)) := by
  have hcut : ∀ x, parentOf (db.set (.template id) (some t)) x = parentOf db x ∨
      parentOf (db.set (.template id) (some t)) x = none := by
    intro x
    rw [parentOf_set]
    by_cases hx : x = id
    · subst hx
      rw [Function.update_self]
      exact ht
    · rw [Function.update_of_ne hx]
      exact .inl rfl
  constructor
  · intro x q hq
    have hold : parentOf db x = some q := by
      rcases hcut x with hsame | hnone
      · exact hsame.symm.trans hq
      · exact nomatch hnone.symm.trans hq
    by_cases hqid : q = id
    · subst hqid
      exact ⟨t, Store.set_row_self ..⟩
    · exact stored_set (h.closed x q hold) hqid
  · intro x
    exact (h.rooted x).of_cut hcut

theorem mem_templatesWhere {q : CategoryTemplate → Bool} {t : CategoryTemplate} :
    (id, t) ∈ templatesWhere db q ↔ db.row (.template id) = some t ∧ q t = true := by
  constructor
  · intro h
    obtain ⟨k, -, hk⟩ := List.mem_filterMap.1 h
    cases k with
    | template id' =>
        obtain ⟨t', ht', heq⟩ := Option.map_eq_some_iff.1 hk
        cases heq
        simpa [Option.filter_eq_some_iff] using ht'
    | product _ => cases hk
    | image _ => cases hk
    | schedule _ => cases hk
  · rintro ⟨ht, hq⟩
    apply List.mem_filterMap.2
    refine ⟨.template id, db.mem_keys_of_row ht, ?_⟩
    simp [ht, hq]

theorem mem_childTemplates :
    x ∈ Query.eval (.childTemplates id) db ↔ parentOf db x = some id := by
  rw [Query.eval, List.mem_map]
  constructor
  · rintro ⟨⟨_, t⟩, ht, rfl⟩
    obtain ⟨hrow, hparent⟩ := mem_templatesWhere.1 ht
    rw [parentOf_of_row hrow]
    simpa using hparent
  · intro h
    obtain ⟨t, ht⟩ := stored_of_parent h
    refine ⟨(x, t), mem_templatesWhere.2 ⟨ht, ?_⟩, rfl⟩
    rw [parentOf_of_row ht] at h
    simp [h]

theorem parentOf_dropParent (db : Database) (id : Id) :
    parentOf (touch (.dropParent id) db) = Function.update (parentOf db) id none := by
  cases hrow : db.row (.template id) with
  | none =>
      have hnone : parentOf db id = none := by simp [parentOf, hrow]
      rw [touch_miss (by simp [Update.guard, Update.key, hrow]), ← hnone, Function.update_eq_self]
  | some t =>
      rw [touch_hit (by simp [Update.guard, Update.key, hrow])]
      refine (parentOf_set db id _).trans ?_
      simp [Update.change, Update.key, hrow]

theorem stored_dropParent (h : Stored db x) : Stored (touch (.dropParent id) db) x := by
  obtain ⟨t, ht⟩ := h
  by_cases hx : x = id
  · subst hx
    rw [touch_hit (by simp [Update.guard, Update.key, ht])]
    refine ⟨{ t with parentId := none }, (applyUpdate_row_self (S := catalog) _ _).trans ?_⟩
    simp [Update.change, Update.key, ht]
  · exact ⟨t, (touch_row_of_ne (template_ne hx)).trans ht⟩

theorem parentOf_dropParents (children : List Id) (db : Database) (x : Id) :
    parentOf (touchAll Update.dropParent children db) x =
      if x ∈ children then none else parentOf db x := by
  induction children generalizing db with
  | nil => simp [touchAll]
  | cons c children ih =>
      refine (ih (touch (.dropParent c) db)).trans ?_
      rw [parentOf_dropParent]
      by_cases hx : x = c
      · simp [hx]
      · simp [hx]

theorem stored_dropParents (children : List Id) (h : Stored db x) :
    Stored (touchAll Update.dropParent children db) x := by
  induction children generalizing db with
  | nil => exact h
  | cons c children ih => exact ih (stored_dropParent h)

/-! ## Slugs -/

def candidate (base : String) : ℕ → String :=
  Numbering.numbered base fun n => base ++ "-" ++ toString n

theorem candidate_injective (base : String) : Function.Injective (candidate base) := by
  refine Numbering.numbered_injective (fun n m h => ?_) fun n h => ?_
  · have hdigits : Nat.toDigits 10 n = Nat.toDigits 10 m :=
      String.ofList_injective ((String.append_right_inj _).1 h)
    have hvalue := congrArg (fun cs => Nat.ofDigitChars 10 cs 0) hdigits
    simpa using hvalue
  · have hlength := congrArg String.length h
    have hdash : "-".length = 1 := rfl
    simp at hlength
    omega

def slugs (db : Database) : List String := (templatesWhere db fun _ => true).map fun t => t.2.slug

theorem mem_slugs {slug : String} :
    slug ∈ slugs db ↔ ∃ id t, db.row (.template id) = some t ∧ t.slug = slug := by
  constructor
  · intro h
    obtain ⟨⟨id, t⟩, ht, hslug⟩ := List.mem_map.1 h
    exact ⟨id, t, (mem_templatesWhere.1 ht).1, hslug⟩
  · rintro ⟨id, t, ht, hslug⟩
    exact List.mem_map.2 ⟨(id, t), mem_templatesWhere.2 ⟨ht, rfl⟩, hslug⟩

theorem templateBySlug_isNone {slug : String} :
    (Query.eval (.templateBySlug slug) db).isNone = true ↔ slug ∉ slugs db := by
  rw [mem_slugs]
  simp [Query.eval, List.eq_nil_iff_forall_not_mem, mem_templatesWhere]

theorem candidate_free {base : String} {k : ℕ} (hcount : (slugs db).length = k)
    (htaken : ∀ j < k, candidate base j ∈ slugs db) : candidate base k ∉ slugs db := by
  have hcard : (slugs db).toFinset.card ≤ k := hcount ▸ List.toFinset_card_le _
  have hfree := Numbering.free_of_taken (candidate_injective base) hcard
    fun j hj => List.mem_toFinset.2 (htaken j hj)
  exact fun hmem => hfree (List.mem_toFinset.2 hmem)

/-! ## Requests -/

variable {n : ℕ} {σ : Session catalog}

theorem ends_ensureExists {R : Except Err Unit → ℕ → Session catalog → Prop}
    (hk : Stored σ.view id → R (.ok ()) n σ)
    (herror : ¬ Stored σ.view id →
      R (.error (.notFound "Category template not found")) n σ.rollback) :
    EndsWith answer (ensureExists id) n σ R := by
  apply ends_ask
  apply ends_throwIf
  · intro hnone
    apply herror
    rintro ⟨t, ht⟩
    simp [Query.eval, ht] at hnone
  · intro hsome
    exact hk (Option.isSome_iff_exists.1 (Option.isNone_eq_false_iff.1 hsome))

theorem ends_ensureParent {parentId : Option Id} {R : Except Err Unit → ℕ → Session catalog → Prop}
    (hk : (∀ p, parentId = some p → Stored σ.view p) → R (.ok ()) n σ)
    (herror : (¬ ∀ p, parentId = some p → Stored σ.view p) →
      R (.error (.notFound "Category template not found")) n σ.rollback) :
    EndsWith answer (ensureParent parentId) n σ R := by
  cases parentId with
  | none => exact hk nofun
  | some parentId =>
      apply ends_ensureExists
      · intro hstored
        exact hk (by simpa using hstored)
      · intro hmissing
        exact herror (by simpa using hmissing)

theorem ends_firstFreeSlug {base : String} {tries k : ℕ}
    (hcount : (slugs σ.view).length = tries + k)
    (htaken : ∀ j < k, candidate base j ∈ slugs σ.view) :
    EndsWith answer (firstFreeSlug base tries (k + 2) (candidate base k)) n σ fun v n' σ' =>
      (∃ slug, v = .ok slug ∧ slug ∉ slugs σ.view) ∧ n' = n ∧ σ' = σ := by
  induction tries generalizing k with
  | zero => exact ⟨⟨_, rfl, candidate_free (by omega) htaken⟩, rfl, rfl⟩
  | succ tries ih =>
      apply ends_ask
      split
      · next hfree => exact ⟨⟨_, rfl, templateBySlug_isNone.1 hfree⟩, rfl, rfl⟩
      · next hfound =>
          apply ih (k := k + 1) (by omega)
          intro j hj
          rcases Nat.lt_succ_iff_lt_or_eq.1 hj with hlt | rfl
          · exact htaken j hlt
          · exact not_not.1 fun hfree => hfound (templateBySlug_isNone.2 hfree)

theorem ends_uniqueSlug (name : String) :
    EndsWith answer (uniqueSlug name) n σ fun v n' σ' =>
      (∃ slug, v = .ok slug ∧ slug ∉ slugs σ.view) ∧ n' = n + 1 ∧ σ' = σ := by
  apply ends_invoke
  apply ends_ask
  apply ends_firstFreeSlug (k := 0)
  · simp [slugs, Query.eval]
  · exact nofun

/-- A template that is new, under a parent there is and with a slug of its own. -/
def Created (dto : CreateCategoryTemplateDto) (db db' : Database) : Prop :=
  ∃ id t, ¬ Stored db id ∧ t.parentId = dto.parentId ∧ t.slug ∉ slugs db ∧
    (∀ p, dto.parentId = some p → Stored db p) ∧ db' = db.set (.template id) (some t)

theorem create_serves (dto : CreateCategoryTemplateDto) :
    serve answer (create dto) db = db ∨ Created dto db (serve answer (create dto) db) := by
  suffices hends : EndsWith answer (create dto) 0 (.start db) fun _ _ σ =>
      σ.view = db ∨ Created dto db σ.view from hends
  apply Ends.seq (ends_ensureParent (R := fun v n' σ' => σ' = .start db ∧
    (v = .ok () → ∀ p, dto.parentId = some p → Stored db p)) _ _)
  · rintro _ n' _ ⟨rfl, hparent⟩
    apply Ends.seq (ends_uniqueSlug dto.name)
    · rintro slug n'' _ ⟨⟨_, hslug, hfree⟩, -, rfl⟩
      cases hslug
      apply ends_invoke
      apply ends_insertOne
      · intro hnew
        refine .inr ⟨_, _, ?_, rfl, hfree, hparent rfl, rfl⟩
        rintro ⟨t, ht⟩
        simp [Update.guard, Update.key, ht] at hnew
      · exact fun _ => .inl rfl
    · rintro e n'' _ ⟨⟨_, he, -⟩, -, -⟩
      cases he
  · rintro e n' _ ⟨rfl, -⟩
    exact .inl rfl
  · exact fun hparent => ⟨rfl, fun _ => hparent⟩
  · exact fun _ => ⟨rfl, nofun⟩

/-- The checks of `update`: the template is there, is not its own new parent, and that is
there as well. -/
structure Accepted (db : Database) (id : Id) (dto : UpdateCategoryTemplateDto) : Prop where
  stored : Stored db id
  other : dto.parentId ≠ some (some id)
  parent : ∀ p, dto.parentId = some (some p) → Stored db p

def updated (dto : UpdateCategoryTemplateDto) (t : CategoryTemplate) : CategoryTemplate :=
  { t with name := dto.name.getD t.name, parentId := dto.parentId.getD t.parentId
           sortOrder := dto.sortOrder.getD t.sortOrder, isActive := dto.isActive.getD t.isActive }

def Updated (id : Id) (dto : UpdateCategoryTemplateDto) (db db' : Database) : Prop :=
  (¬ Accepted db id dto ∧ db' = db) ∨
    (Accepted db id dto ∧ ∃ t, db.row (.template id) = some t ∧
      db' = db.set (.template id) (some (updated dto t)))

theorem update_serves (dto : UpdateCategoryTemplateDto) :
    Updated id dto db (serve answer (update id dto) db) := by
  suffices hends : EndsWith answer (update id dto) 0 (.start db) fun _ _ σ =>
      Updated id dto db σ.view from hends
  have hrefused : ¬ Accepted db id dto → Updated id dto db db := fun h => .inl ⟨h, rfl⟩
  apply Ends.seq (ends_ensureExists (R := fun v n' σ' => σ' = .start db ∧
    (v = .ok () ↔ Stored db id)) _ _)
  · rintro _ n' _ ⟨rfl, hstored⟩
    apply ends_check
    · intro hself
      apply hrefused
      intro haccepted
      exact haccepted.other (by simpa using hself)
    · intro hother
      apply Ends.seq (ends_ensureParent (R := fun v n' σ' => σ' = .start db ∧
        (v = .ok () ↔ ∀ p, dto.parentId.join = some p → Stored db p)) _ _)
      · rintro _ n'' _ ⟨rfl, hparent⟩
        obtain ⟨t, ht⟩ := hstored.1 rfl
        have haccepted : Accepted db id dto := by
          refine ⟨⟨t, ht⟩, by simpa using hother, fun p hp => hparent.1 rfl p ?_⟩
          exact Option.join_eq_some_iff.2 hp
        apply ends_updateOne
        · intro _
          refine .inr ⟨haccepted, t, ht, ?_⟩
          simp only [Session.apply_view, Session.start_view, applyUpdate, Update.key, Update.change, ht]
          rfl
        · intro hmiss
          simp [Update.guard, Update.key, ht] at hmiss
      · rintro e n'' _ ⟨rfl, hparent⟩
        apply hrefused
        intro haccepted
        refine absurd (hparent.2 fun p hp => haccepted.parent p ?_) (by simp)
        exact Option.join_eq_some_iff.1 hp
      · exact fun hparent => ⟨rfl, iff_of_true rfl hparent⟩
      · exact fun hparent => ⟨rfl, iff_of_false (by simp) hparent⟩
  · rintro e n' _ ⟨rfl, hmissing⟩
    apply hrefused
    intro haccepted
    exact absurd (hmissing.2 haccepted.stored) (by simp)
  · exact fun hstored => ⟨rfl, iff_of_true rfl hstored⟩
  · exact fun hmissing => ⟨rfl, iff_of_false (by simp) hmissing⟩

structure Removed (id : Id) (db db' : Database) : Prop where
  stored : ∀ x, x ≠ id → Stored db x → Stored db' x
  cut : ∀ x, parentOf db' x = parentOf db x ∨ parentOf db' x = none
  orphans : ∀ x, parentOf db' x ≠ some id

theorem removed_dropParents {v : Database} (hv : v = db.set (.template id) none) :
    Removed id db (touchAll Update.dropParent (Query.eval (.childTemplates id) db) v) := by
  have hparent : ∀ x, parentOf v x = Function.update (parentOf db) id none x := by
    intro x
    rw [hv, parentOf_set]
    rfl
  constructor
  · intro x hx hstored
    apply stored_dropParents
    rw [hv]
    exact stored_set hstored hx
  · intro x
    rw [parentOf_dropParents, hparent]
    by_cases hx : x = id
    · simp [hx]
    · rw [Function.update_of_ne hx]
      split
      · exact .inr rfl
      · exact .inl rfl
  · intro x
    rw [parentOf_dropParents, hparent]
    split
    · simp
    · next hchild =>
        by_cases hx : x = id
        · simp [hx]
        · rw [Function.update_of_ne hx]
          exact fun h => hchild (mem_childTemplates.2 h)

theorem remove_serves (id : Id) :
    serve answer (remove id) db = db ∨ Removed id db (serve answer (remove id) db) := by
  suffices hends : EndsWith answer (remove id) 0 (.start db) fun _ _ σ =>
      σ.view = db ∨ Removed id db σ.view from hends
  apply Ends.seq (ends_ensureExists (R := fun v n' σ' => σ' = .start db) _ _)
  · rintro _ n' _ rfl
    apply ends_ask
    apply Ends.seq (ends_updateOne (R := fun v n' σ' =>
      (v = .ok () → σ'.view = db.set (.template id) none) ∧ (v ≠ .ok () → σ'.view = db)) _ _)
    · intro _ n'' σ' hdeleted
      rw [Ends, exec_each_updateMany]
      exact .inr (removed_dropParents (hdeleted.1 rfl))
    · intro e n'' σ' hfailed
      exact .inl (hfailed.2 (by simp))
    · exact fun _ => ⟨fun _ => rfl, fun hok => (hok rfl).elim⟩
    · exact fun _ => ⟨by simp, fun _ => rfl⟩
  · rintro e n' _ rfl
    exact .inl rfl
  · exact fun _ => rfl
  · exact fun _ => rfl

/-! ## The tree -/

/-- An update does not move the template under one of its descendants. -/
def StaysTree (db : Database) : Request → Prop
  | .update id dto => ∀ p, dto.parentId = some (some p) → ¬ Below (parentOf db) p id
  | _ => True

theorem Sound.create (h : Sound db) (dto : CreateCategoryTemplateDto) :
    Sound (serve answer (create dto) db) := by
  rcases @create_serves answer db dto with hsame | ⟨id, t, hnew, ht, -, hp, hset⟩
  · rw [hsame]
    exact h
  rw [hset]
  cases hparent : dto.parentId with
  | none => exact h.set_cut t (.inr (ht.trans hparent))
  | some p =>
      apply h.set_parent t (ht.trans hparent) (hp p hparent)
      -- nothing hangs from a template that is not there
      intro hreach
      cases hreach with
      | refl => exact hnew (hp _ hparent)
      | tail _ hup => exact hnew (h.closed _ _ hup)

theorem Sound.update (h : Sound db) (dto : UpdateCategoryTemplateDto)
    (hok : StaysTree db (.update id dto)) : Sound (serve answer (update id dto) db) := by
  rcases @update_serves answer db id dto with
    ⟨-, hsame⟩ | ⟨haccepted, t, ht, hset⟩
  · rw [hsame]
    exact h
  rw [hset]
  cases hparent : dto.parentId with
  | none =>
      apply h.set_cut
      simp [updated, hparent, parentOf_of_row ht]
  | some parentId =>
      cases parentId with
      | none =>
          apply h.set_cut
          simp [updated, hparent]
      | some p =>
          apply h.set_parent _ (by simp [updated, hparent]) (haccepted.parent p hparent)
          intro hreach
          rcases Relation.reflTransGen_iff_eq_or_transGen.1 hreach with heq | hbelow
          · exact haccepted.other (heq ▸ hparent)
          · exact hok p hparent hbelow

theorem Sound.remove (h : Sound db) (id : Id) : Sound (serve answer (remove id) db) := by
  rcases @remove_serves answer db id with hsame | hremoved
  · rw [hsame]
    exact h
  constructor
  · intro x p hp
    have hpid : p ≠ id := by
      rintro rfl
      exact hremoved.orphans x hp
    rcases hremoved.cut x with hsame | hnone
    · exact hremoved.stored p hpid (h.closed x p (hsame.symm.trans hp))
    · exact nomatch hnone.symm.trans hp
  · intro x
    exact (h.rooted x).of_cut hremoved.cut

/-- Moving a template under one of its descendants takes it off the tree. -/
theorem update_closes_cycle (h : Sound db) (dto : UpdateCategoryTemplateDto)
    (hparent : dto.parentId = some (some p)) (hbelow : Below (parentOf db) p id) :
    ¬ Rooted (parentOf (serve answer (update id dto) db)) id := by
  obtain ⟨child, hchild⟩ := hbelow.exists_child
  obtain ⟨q, hq⟩ := hbelow.parent_isSome
  have haccepted : Accepted db id dto := by
    refine ⟨h.closed child id hchild, ?_, ?_⟩
    · intro hself
      cases hparent.symm.trans hself
      exact (h.rooted id).not_below_self hbelow
    · intro p' hp'
      cases hparent.symm.trans hp'
      exact stored_of_parent hq
  rcases @update_serves answer db id dto with
    ⟨hrefused, -⟩ | ⟨-, t, ht, hset⟩
  · exact (hrefused haccepted).elim
  have hmoved : parentOf (db.set (.template id) (some (updated dto t))) =
      Function.update (parentOf db) id (some p) := by
    rw [parentOf_set]
    simp [updated, hparent]
  rw [hset, hmoved]
  exact not_rooted_update hbelow.to_reflTransGen

end WhatStore.Catalog
