import Mathlib.Logic.Relation
import Mathlib.Logic.Function.Basic

/-!
# Forests given by parents

A function `parent : α → Option α` draws an arrow from each node to its parent. A node is
rooted when following the arrows from it ends at a node without a parent; then no cycle
passes through it. Moving a node under a new parent keeps every node rooted unless the new
parent lies below the node, and then the node is rooted no more.
-/

namespace ParentForest

variable {α : Type*} {parent parent' : α → Option α} {a b c r : α}

def Up (parent : α → Option α) (a b : α) : Prop := parent a = some b

/-- The parents followed from `a` lead to `b`, in any number of steps. -/
def Reaches (parent : α → Option α) : α → α → Prop := Relation.ReflTransGen (Up parent)

/-- `a` is a child of `b`, or a child of one, and so on. -/
def Below (parent : α → Option α) : α → α → Prop := Relation.TransGen (Up parent)

/-- The parents followed from `a` end at a root. -/
def Rooted (parent : α → Option α) (a : α) : Prop := ∃ r, Reaches parent a r ∧ parent r = none

theorem rooted_of_none (h : parent a = none) : Rooted parent a := ⟨a, .refl, h⟩

theorem Rooted.of_up (hb : Rooted parent b) (h : parent a = some b) : Rooted parent a := by
  obtain ⟨r, hr, hroot⟩ := hb
  exact ⟨r, .head h hr, hroot⟩

/-- A node is below only what its parent is or is below. -/
theorem Below.up (h : Below parent a c) (hb : parent a = some b) : Reaches parent b c := by
  obtain ⟨b', hb', hrest⟩ := Relation.TransGen.head'_iff.1 h
  have heq : b' = b := Option.some.inj (hb'.symm.trans hb)
  exact heq ▸ hrest

theorem Below.parent_isSome (h : Below parent a c) : ∃ b, parent a = some b := by
  obtain ⟨b, hb, -⟩ := Relation.TransGen.head'_iff.1 h
  exact ⟨b, hb⟩

theorem Below.exists_child (h : Below parent a c) : ∃ b, parent b = some c := by
  obtain ⟨b, -, hb⟩ := Relation.TransGen.tail'_iff.1 h
  exact ⟨b, hb⟩

/-- No cycle passes through a rooted node. -/
theorem Rooted.not_below_self (h : Rooted parent a) : ¬ Below parent a a := by
  obtain ⟨r, hr, hroot⟩ := h
  induction hr using Relation.ReflTransGen.head_induction_on with
  | refl =>
      intro hself
      obtain ⟨b, hb⟩ := hself.parent_isSome
      exact nomatch hroot.symm.trans hb
  | head hup _ ih =>
      intro hself
      exact ih (Relation.TransGen.tail' (hself.up hup) hup)

theorem Rooted.of_same (h : Rooted parent a) (hsame : ∀ b, Reaches parent a b →
    parent' b = parent b) : Rooted parent' a := by
  obtain ⟨r, hr, hroot⟩ := h
  have hr' : Reaches parent' a r := by
    clear hroot
    induction hr with
    | refl => exact .refl
    | tail hpath hup ih => exact .tail ih ((hsame _ hpath).trans hup)
  exact ⟨r, hr', (hsame r hr).trans hroot⟩

theorem Rooted.of_cut (h : Rooted parent a)
    (hcut : ∀ b, parent' b = parent b ∨ parent' b = none) : Rooted parent' a := by
  obtain ⟨r, hr, hroot⟩ := h
  induction hr using Relation.ReflTransGen.head_induction_on with
  | refl => exact rooted_of_none ((hcut r).elim (fun hsame => hsame.trans hroot) id)
  | @head x y hup _ ih =>
      rcases hcut x with hsame | hnone
      · exact ih.of_up (hsame.trans hup)
      · exact rooted_of_none hnone

variable [DecidableEq α]

/-- Moving a node under one that is not below it keeps every node rooted. -/
theorem rooted_update (h : ∀ x, Rooted parent x) (hb : ¬ Reaches parent b a) (x : α) :
    Rooted (Function.update parent a (some b)) x := by
  have hrooted : Rooted (Function.update parent a (some b)) b := by
    apply (h b).of_same
    intro y hy
    apply Function.update_of_ne
    rintro rfl
    exact hb hy
  have hmoved : Rooted (Function.update parent a (some b)) a :=
    hrooted.of_up (Function.update_self ..)
  obtain ⟨r, hr, hroot⟩ := h x
  induction hr using Relation.ReflTransGen.head_induction_on with
  | refl =>
      by_cases hr : r = a
      · exact hr ▸ hmoved
      · exact rooted_of_none ((Function.update_of_ne hr ..).trans hroot)
  | @head x y hup _ ih =>
      by_cases hx : x = a
      · exact hx ▸ hmoved
      · exact ih.of_up ((Function.update_of_ne hx ..).trans hup)

/-- Moving a node under one that is below it closes a cycle. -/
theorem not_rooted_update (hb : Reaches parent b a) :
    ¬ Rooted (Function.update parent a (some b)) a := by
  have hpath : ∀ x, Reaches parent x a → Reaches (Function.update parent a (some b)) x a := by
    intro x hx
    induction hx using Relation.ReflTransGen.head_induction_on with
    | refl => exact .refl
    | @head x y hup _ ih =>
        by_cases hx : x = a
        · exact hx ▸ .refl
        · exact .head ((Function.update_of_ne hx ..).trans hup) ih
  intro hrooted
  exact hrooted.not_below_self (Relation.TransGen.head' (Function.update_self ..) (hpath b hb))

end ParentForest
