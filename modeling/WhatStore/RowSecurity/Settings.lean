import Mathlib.Logic.Function.Basic

/-!
# Settings and policies of a database connection

A session does not know a custom setting until a transaction sets it locally.
When that transaction is over the setting is not unknown again: it reads as the
empty text. The policies of row security compare columns with casts of such
settings. A cast of a text that is no uuid fails the whole statement, and the
operands of a condition are evaluated in no order one may rely on, so a
condition may fail as soon as one of its casts does.
-/

namespace RowSecurity

variable {N X U : Type}

/-! ## Settings -/

/-- What the session knows of the custom settings, and what the open transaction
has set. -/
structure Connection (N : Type) where
  session : N → Option String
  transaction : Option (N → Option String)

namespace Connection

variable (c : Connection N) {n m : N} {v : String}

def fresh : Connection N := ⟨fun _ => none, none⟩

/-- `current_setting(n, true)`. -/
def current (n : N) : Option String := (c.transaction.bind fun set => set n).or (c.session n)

def start : Connection N := { c with transaction := some fun _ => none }

/-- `set_config(n, v, true)`: the session knows the setting from now on. -/
def setLocal [DecidableEq N] (n : N) (v : String) : Connection N where
  session := Function.update c.session n (some ((c.session n).getD ""))
  transaction := c.transaction.map fun set => Function.update set n (some v)

def finish : Connection N := { c with transaction := none }

/-- The session has set the settings that are known before, and keeps no value of
them. -/
def Knows (known : N → Bool) : Prop := ∀ n, c.session n = if known n then some "" else none

end Connection

/-- What the settings read as where the one of `l` is set, those that are known are
empty and the others have never been set. -/
def reading [DecidableEq N] (l : Option (N × String)) (known : N → Bool) (n : N) :
    Option String :=
  if (l.map Prod.fst) = some n then l.map Prod.snd else if known n then some "" else none

section Reading

variable [DecidableEq N] {c : Connection N} {known : N → Bool} {n m : N} {v : String}

theorem reading_self : reading (some (n, v)) known n = some v := by
  simp [reading]

theorem reading_other (h : m ≠ n) : reading (some (n, v)) known m = reading none known m := by
  simp [reading, Ne.symm h]

theorem reading_none : reading none known n = if known n then some "" else none := by
  simp [reading]

theorem Connection.Knows.setLocal (h : c.Knows known) (n : N) (v : String) :
    (c.setLocal n v).Knows fun m => known m || m == n := by
  intro m
  by_cases hm : m = n
  · subst hm
    simp only [Connection.setLocal, Function.update_self, h m]
    by_cases hknown : known m = true <;> simp [hknown]
  · simpa [Connection.setLocal, hm] using h m

/-- It makes no difference whether the setting that is set was known before. -/
theorem reading_known (n : N) (v : String) :
    reading (some (n, v)) (fun m => known m || m == n) = reading (some (n, v)) known := by
  funext m
  by_cases hm : m = n
  · rw [hm, reading_self, reading_self]
  · simp [reading_other hm, reading_none, hm]

/-- Outside of transactions no setting has a value. -/
theorem Connection.Knows.current (h : c.Knows known) (hidle : c.transaction = none) :
    c.current = reading none known := by
  funext n
  rw [reading_none, ← h n]
  simp [Connection.current, hidle]

/-- A transaction reads what it has set, and nothing else. -/
theorem Connection.Knows.current_setLocal (h : c.Knows known) (n : N) (v : String) :
    (c.start.setLocal n v).current = reading (some (n, v)) known := by
  funext m
  by_cases hm : m = n
  · subst hm
    rw [reading_self]
    simp [Connection.current, Connection.start, Connection.setLocal]
  · rw [reading_other hm, reading_none, ← h m]
    simp [Connection.current, Connection.start, Connection.setLocal, hm]

end Reading

/-! ## Conditions -/

inductive Text (N : Type) where
  | setting (n : N)
  /-- `nullif(t, v)` -/
  | nullif (t : Text N) (v : String)

def Text.value (f : N → Option String) : Text N → Option String
  | .setting n => f n
  | .nullif t v => (t.value f).filter (· != v)

/-- A condition on `X`, which stands for a row together with the tables it is in. -/
inductive Condition (N X U : Type) where
  /-- `column = t::uuid` -/
  | isCast (column : X → Option U) (t : Text N)
  | isNull (column : X → Option U)
  /-- `t = v` -/
  | isText (t : Text N) (v : String)
  | or (p q : Condition N X U)
  | and (p q : Condition N X U)
  /-- `EXISTS (SELECT 1 FROM rows WHERE p)` -/
  | anyOf (rows : X → List X) (p : Condition N X U)

namespace Condition

variable [DecidableEq U] (cast : String → Option U) (f : N → Option String)

/-- The value of a condition whose casts succeed; `none` is `NULL`. -/
def value : Condition N X U → X → Option Bool
  | .isCast column t, x => (column x).bind fun u =>
      ((t.value f).bind cast).map fun u' => decide (u = u')
  | .isNull column, x => some (column x).isNone
  | .isText t v, _ => (t.value f).map (· == v)
  | .or p q, x => match p.value x, q.value x with
    | some true, _ => some true
    | _, some true => some true
    | some false, some false => some false
    | _, _ => none
  | .and p q, x => match p.value x, q.value x with
    | some false, _ => some false
    | _, some false => some false
    | some true, some true => some true
    | _, _ => none
  | .anyOf rows p, x => some ((rows x).any fun y => p.value y == some true)

/-- A row is let through where the condition is true, not where it is `NULL`. -/
def holds (p : Condition N X U) (x : X) : Bool := p.value cast f x == some true

/-- The condition may fail the statement: one of its casts does. -/
def Raises : Condition N X U → Prop
  | .isCast _ t => ∃ text, t.value f = some text ∧ cast text = none
  | .isNull _ => False
  | .isText _ _ => False
  | .or p q => p.Raises ∨ q.Raises
  | .and p q => p.Raises ∨ q.Raises
  | .anyOf _ p => p.Raises

variable {cast f} {p q : Condition N X U} {x : X}

theorem holds_or : (p.or q).holds cast f x = true ↔
    p.holds cast f x = true ∨ q.holds cast f x = true := by
  simp only [holds, value, beq_iff_eq]
  rcases p.value cast f x with - | - | - <;> rcases q.value cast f x with - | - | - <;> simp

theorem holds_and : (p.and q).holds cast f x = true ↔
    p.holds cast f x = true ∧ q.holds cast f x = true := by
  simp only [holds, value, beq_iff_eq]
  rcases p.value cast f x with - | - | - <;> rcases q.value cast f x with - | - | - <;> simp

theorem holds_anyOf {rows : X → List X} : (Condition.anyOf rows p).holds cast f x = true ↔
    ∃ y ∈ rows x, p.holds cast f y = true := by
  simp [holds, value]

theorem holds_isNull {column : X → Option U} :
    (Condition.isNull (N := N) column).holds cast f x = true ↔ column x = none := by
  simp [holds, value]

theorem holds_isText {t : Text N} {v : String} :
    (Condition.isText t v : Condition N X U).holds cast f x = true ↔ t.value f = some v := by
  simp [holds, value, Option.map_eq_some_iff]

theorem holds_isCast {column : X → Option U} {t : Text N} :
    (Condition.isCast column t).holds cast f x = true ↔
      ∃ u, column x = some u ∧ (t.value f).bind cast = some u := by
  simp only [holds, value, beq_iff_eq]
  cases column x with
  | none => simp
  | some u =>
      cases (t.value f).bind cast with
      | none => simp
      | some u' => simp [eq_comm]

end Condition

/-- A policy for all commands: the rows a statement sees, and those it may write. -/
structure Policy (N X U : Type) where
  sees : Condition N X U
  writes : Condition N X U

end RowSecurity
