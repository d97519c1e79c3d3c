import Mathlib.Data.List.Infix

/-!
# Request bodies in the audit log

`AuditInterceptor` keeps the body of a request in the log, with everything that
is stored under a key that looks like a credential blanked out. Two bodies have
the same record exactly when they differ under such keys alone.
-/

namespace WhatStore.Audit

/-- A body as it was parsed. The keys of an object are distinct, and in the order
in which `Object.entries` lists them, so that `Object.fromEntries` makes the same
object of them. -/
inductive Json (Number : Type) where
  | null
  | bool (b : Bool)
  | number (n : Number)
  | string (s : String)
  | array (items : List (Json Number))
  | object (entries : List (String × Json Number))

variable {Number : Type}

def REDACTED : String := "[redacted]"

/-- The words of `SECRET_KEY_PATTERN`. -/
def secretWords : List String := ["password", "secret", "token", "credentials"]

/-- `SECRET_KEY_PATTERN.test(key)`: the pattern ignores the case of letters. -/
def isSecretKey (key : String) : Bool :=
  secretWords.any fun word => word.toList <:+: key.toList.map Char.toLower

mutual

def redact : Json Number → Json Number
  | .array items => .array (redactItems items)
  | .object entries => .object (redactEntries entries)
  | .null => .null
  | .bool b => .bool b
  | .number n => .number n
  | .string s => .string s

def redactItems : List (Json Number) → List (Json Number)
  | [] => []
  | item :: items => redact item :: redactItems items

def redactEntries : List (String × Json Number) → List (String × Json Number)
  | [] => []
  | entry :: entries => redactEntry entry :: redactEntries entries

def redactEntry : String × Json Number → String × Json Number
  | (key, value) => (key, if isSecretKey key then .string REDACTED else redact value)

end

/-- What of a body is kept: all of it redacted, or the names of its fields with
the values of those that are `included`. -/
inductive BodyMode where
  | full
  | keys (included : List String)

/-- The own properties of a body, in the order of `Object.keys`. -/
def properties : Json Number → List (String × Json Number)
  | .object entries => entries
  | .array items => items.zipIdx.map fun item => (toString item.2, item.1)
  | _ => []

/-- The names of the fields, and those of the included ones that are there. -/
def describeKeys (included : List String) (body : Json Number) : Json Number :=
  match body with
  | .object _ | .array _ =>
    let kept := included.filterMap fun key =>
      ((properties body).lookup key).map fun value => (key, value)
    let fields := ("fields", .array ((properties body).map fun property => .string property.1))
    if kept.isEmpty then .object [fields] else .object [fields, ("values", redact (.object kept))]
  | _ => .object []

/-- What the log keeps of a body. A request without a body has none. -/
def describeBody (body : Option (Json Number)) : BodyMode → Option (Json Number)
  | .full => body.map redact
  | .keys included => some ((body.map (describeKeys included)).getD (.object []))

/-! ## Bodies that differ under secret keys -/

mutual

/-- Equal except for the values stored under secret keys, at any depth. -/
inductive Alike : Json Number → Json Number → Prop where
  | refl (j : Json Number) : Alike j j
  | array {items items' : List (Json Number)} (h : AlikeItems items items') :
      Alike (.array items) (.array items')
  | object {entries entries' : List (String × Json Number)} (h : AlikeEntries entries entries') :
      Alike (.object entries) (.object entries')

inductive AlikeItems : List (Json Number) → List (Json Number) → Prop where
  | nil : AlikeItems [] []
  | cons {item item' : Json Number} {items items' : List (Json Number)} (h : Alike item item')
      (hs : AlikeItems items items') : AlikeItems (item :: items) (item' :: items')

inductive AlikeEntries :
    List (String × Json Number) → List (String × Json Number) → Prop where
  | nil : AlikeEntries [] []
  | secret {key : String} (value value' : Json Number)
      {entries entries' : List (String × Json Number)} (hkey : isSecretKey key = true)
      (hs : AlikeEntries entries entries') :
      AlikeEntries ((key, value) :: entries) ((key, value') :: entries')
  | shown {key : String} {value value' : Json Number}
      {entries entries' : List (String × Json Number)} (h : Alike value value')
      (hs : AlikeEntries entries entries') :
      AlikeEntries ((key, value) :: entries) ((key, value') :: entries')

end

@[simp] theorem redactItems_eq (items : List (Json Number)) :
    redactItems items = items.map redact := by
  induction items with
  | nil => rfl
  | cons item items ih => simp [redactItems, ih]

@[simp] theorem redactEntries_eq (entries : List (String × Json Number)) :
    redactEntries entries = entries.map redactEntry := by
  induction entries with
  | nil => rfl
  | cons entry entries ih => simp [redactEntries, ih]

mutual

theorem Alike.redact_eq {j j' : Json Number} : Alike j j' → redact j = redact j'
  | .refl j => rfl
  | .array h => by simp only [redact, redactItems_eq, h.map_eq]
  | .object h => by simp only [redact, redactEntries_eq, h.map_eq]

theorem AlikeItems.map_eq {items items' : List (Json Number)} :
    AlikeItems items items' → items.map redact = items'.map redact
  | .nil => rfl
  | .cons h hs => by simp only [List.map_cons, h.redact_eq, hs.map_eq]

theorem AlikeEntries.map_eq {entries entries' : List (String × Json Number)} :
    AlikeEntries entries entries' → entries.map redactEntry = entries'.map redactEntry
  | .nil => rfl
  | .secret value value' hkey hs => by
      simp only [List.map_cons, redactEntry, hkey, if_true, hs.map_eq]
  | .shown h hs => by simp only [List.map_cons, redactEntry, h.redact_eq, hs.map_eq]

end

mutual

theorem alike_of_redact_eq : ∀ {j j' : Json Number}, redact j = redact j' → Alike j j'
  | .null, j', h => by
      cases j' <;> simp [redact] at h
      exact .refl _
  | .bool b, j', h => by
      cases j' <;> simp [redact] at h
      subst h
      exact .refl _
  | .number n, j', h => by
      cases j' <;> simp [redact] at h
      subst h
      exact .refl _
  | .string s, j', h => by
      cases j' <;> simp [redact] at h
      subst h
      exact .refl _
  | .array items, j', h => by
      cases j' with
      | array items' =>
          simp only [redact, redactItems_eq, Json.array.injEq] at h
          exact .array (alikeItems_of_map_eq h)
      | _ => simp [redact] at h
  | .object entries, j', h => by
      cases j' with
      | object entries' =>
          simp only [redact, redactEntries_eq, Json.object.injEq] at h
          exact .object (alikeEntries_of_map_eq h)
      | _ => simp [redact] at h

theorem alikeItems_of_map_eq : ∀ {items items' : List (Json Number)},
    items.map redact = items'.map redact → AlikeItems items items'
  | [], [], _ => .nil
  | item :: items, item' :: items', h => by
      obtain ⟨hitem, hitems⟩ := List.cons.inj h
      exact .cons (alike_of_redact_eq hitem) (alikeItems_of_map_eq hitems)

theorem alikeEntries_of_map_eq : ∀ {entries entries' : List (String × Json Number)},
    entries.map redactEntry = entries'.map redactEntry → AlikeEntries entries entries'
  | [], [], _ => .nil
  | (key, value) :: entries, (key', value') :: entries', h => by
      obtain ⟨hentry, hentries⟩ := List.cons.inj h
      obtain ⟨rfl, hvalue⟩ := Prod.mk.inj hentry
      cases hkey : isSecretKey key with
      | true => exact .secret value value' hkey (alikeEntries_of_map_eq hentries)
      | false =>
          rw [hkey, if_neg (by simp), if_neg (by simp)] at hvalue
          exact .shown (alike_of_redact_eq hvalue) (alikeEntries_of_map_eq hentries)

end

/-- Bodies leave the same record exactly when they are alike. -/
theorem redact_eq_iff {j j' : Json Number} : redact j = redact j' ↔ Alike j j' :=
  ⟨alike_of_redact_eq, Alike.redact_eq⟩

/-! ## Redacting twice -/

/-- A body and its record differ under secret keys alone. -/
theorem alike_redact : ∀ j : Json Number, Alike (redact j) j
  | .null => .refl _
  | .bool _ => .refl _
  | .number _ => .refl _
  | .string _ => .refl _
  | .array items => by
      rw [redact]
      exact .array (alikeItems items)
  | .object entries => by
      rw [redact]
      exact .object (alikeEntries entries)
where
  alikeItems : ∀ items : List (Json Number), AlikeItems (redactItems items) items
    | [] => .nil
    | item :: items => .cons (alike_redact item) (alikeItems items)
  alikeEntries : ∀ entries : List (String × Json Number),
      AlikeEntries (redactEntries entries) entries
    | [] => .nil
    | (key, value) :: entries => by
        rw [redactEntries, redactEntry]
        cases hkey : isSecretKey key with
        | true => exact .secret _ value hkey (alikeEntries entries)
        | false => exact .shown (alike_redact value) (alikeEntries entries)

theorem redact_redact (j : Json Number) : redact (redact j) = redact j :=
  (alike_redact j).redact_eq

/-! ## What is kept -/

inductive Step where
  | index (i : Nat)
  | key (key : String)

def Json.get? : Json Number → List Step → Option (Json Number)
  | j, [] => some j
  | .array items, .index i :: path => items[i]?.bind fun item => item.get? path
  | .object entries, .key key :: path => (entries.lookup key).bind fun value => value.get? path
  | _, _ :: _ => none

/-- No key on the path looks like a credential. -/
def Clean (path : List Step) : Prop := ∀ key, .key key ∈ path → isSecretKey key = false

/-- What a value is without what is stored below it: a scalar itself, how long an
array is, which keys an object has in which order. -/
inductive Shape (Number : Type) where
  | scalar (j : Json Number)
  | array (length : Nat)
  | object (keys : List String)

def Json.shape : Json Number → Shape Number
  | .array items => .array items.length
  | .object entries => .object (entries.map Prod.fst)
  | j => .scalar j

@[simp] theorem redactEntry_fst (entry : String × Json Number) :
    (redactEntry entry).1 = entry.1 := by
  cases entry
  rfl

theorem shape_redact (j : Json Number) : (redact j).shape = j.shape := by
  cases j <;> simp [redact, Json.shape, Function.comp_def]

theorem lookup_redactEntries (key : String) (entries : List (String × Json Number)) :
    (entries.map redactEntry).lookup key = (entries.lookup key).map fun value =>
      if isSecretKey key then .string REDACTED else redact value := by
  induction entries with
  | nil => rfl
  | cons entry entries ih =>
      obtain ⟨key', value⟩ := entry
      rw [List.map_cons, redactEntry, List.lookup_cons, List.lookup_cons]
      cases hkey : key == key' with
      | true =>
          rw [eq_of_beq hkey]
          rfl
      | false => exact ih

/-- Off the secret keys, the record has at each place the record of what the body
has there. -/
theorem get?_redact {path : List Step} (hclean : Clean path) (j : Json Number) :
    (redact j).get? path = (j.get? path).map redact := by
  induction path generalizing j with
  | nil => cases j <;> rfl
  | cons step path ih =>
      have hrest : Clean path := fun key hmem => hclean key (List.mem_cons_of_mem _ hmem)
      cases j with
      | array items =>
          cases step with
          | key key => rfl
          | index i =>
              rw [redact, redactItems_eq, Json.get?, Json.get?, List.getElem?_map]
              cases items[i]? with
              | none => rfl
              | some item => exact ih hrest item
      | object entries =>
          cases step with
          | index i => rfl
          | key key =>
              rw [redact, redactEntries_eq, Json.get?, Json.get?, lookup_redactEntries,
                hclean key List.mem_cons_self]
              cases entries.lookup key with
              | none => rfl
              | some value => exact ih hrest value
      | _ => simp [redact, Json.get?]

theorem get?_append (path rest : List Step) (j : Json Number) :
    j.get? (path ++ rest) = (j.get? path).bind fun value => value.get? rest := by
  induction path generalizing j with
  | nil => cases j <;> rfl
  | cons step path ih =>
      cases j with
      | array items =>
          cases step with
          | key key => rfl
          | index i =>
              simp only [List.cons_append, Json.get?, Option.bind_assoc]
              exact congrArg _ (funext fun item => ih item)
      | object entries =>
          cases step with
          | index i => rfl
          | key key =>
              simp only [List.cons_append, Json.get?, Option.bind_assoc]
              exact congrArg _ (funext fun value => ih value)
      | _ => simp [Json.get?]

/-- What is stored under a secret key is blanked, however deep. -/
theorem get?_redact_secret {path : List Step} (hclean : Clean path) {key : String}
    (hkey : isSecretKey key = true) (j : Json Number) :
    (redact j).get? (path ++ [.key key]) =
      (j.get? (path ++ [.key key])).map fun _ => .string REDACTED := by
  rw [get?_append, get?_append, get?_redact hclean]
  cases j.get? path with
  | none => rfl
  | some j =>
      cases j with
      | object entries =>
          simp only [Option.map_some, Option.bind_some, redact, redactEntries_eq, Json.get?,
            lookup_redactEntries, hkey, if_true]
          cases entries.lookup key <;> rfl
      | _ => rfl

/-- **Audit redaction.** Bodies that are equal except under secret keys leave the
same record; at every place off the secret keys the record has a value exactly when
the body has one, of the same shape, a scalar unchanged; and what was redacted once
is redacted. -/
theorem redaction_faithful {b b' : Option (Json Number)} (halike : Option.Rel Alike b b')
    {path : List Step} (hclean : Clean path) :
    describeBody b .full = describeBody b' .full ∧
      (∀ j, b = some j → ∃ record, describeBody b .full = some record ∧
        (record.get? path).map Json.shape = (j.get? path).map Json.shape) ∧
      describeBody (describeBody b .full) .full = describeBody b .full := by
  constructor
  · cases halike with
    | none => rfl
    | some h => exact congrArg some h.redact_eq
  constructor
  · intro j hj
    subst hj
    refine ⟨redact j, rfl, ?_⟩
    rw [get?_redact hclean, Option.map_map]
    exact congrArg (fun f => Option.map f _) (funext shape_redact)
  · cases b with
    | none => rfl
    | some j => exact congrArg some (redact_redact j)

/-- Two requests that set different credentials, one of them nested. -/
theorem redaction_faithful_credentials :
    let body (key password : String) : Json Nat :=
      .object [("provider", .string "stripe"), ("newPassword", .string password),
        ("options", .array [.object [("secretKey", .string key), ("live", .bool true)]])]
    describeBody (some (body "sk_1" "a")) .full = describeBody (some (body "sk_2" "b")) .full ∧
      (∀ j, some (body "sk_1" "a") = some j →
        ∃ record, describeBody (some (body "sk_1" "a")) .full = some record ∧
          (record.get? [.key "options", .index 0, .key "live"]).map Json.shape =
            (j.get? [.key "options", .index 0, .key "live"]).map Json.shape) ∧
      describeBody (describeBody (some (body "sk_1" "a")) .full) .full =
        describeBody (some (body "sk_1" "a")) .full :=
  redaction_faithful
    (.some (.object (.shown (.refl _) (.secret _ _ (by decide) (.shown (.array
      (.cons (.object (.secret _ _ (by decide) (.shown (.refl _) .nil))) .nil)) .nil)))))
    (by
      intro key hmem
      simp only [List.mem_cons, Step.key.injEq, reduceCtorEq, List.not_mem_nil, or_false,
        false_or] at hmem
      rcases hmem with rfl | rfl <;> decide)

end WhatStore.Audit
