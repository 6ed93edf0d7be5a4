import Mathlib.Data.List.Nodup
import Mathlib.Logic.Function.Basic
import RespStore.Table.Basic

/-!
# RespStore.Proofs.Table.Path

Linked lists in a row of slots. The slots are seen through a function that gives the link in each
slot that has one, and `Leads` relates a link to the indices that following it passes. Chains of
entries and the free list are both lists of this kind.

A link leads along one list of indices at most (`Leads.unique`), so no list comes back to a slot it
has passed (`Leads.nodup`). A list is kept by whatever does not touch its slots (`Leads.congr`), and
loses one index when the link before that is changed (`Leads.unlink`).
-/

namespace RespStore

/-- Following `link` passes the slots `path` and comes to the end of a list. -/
inductive Leads (next : Nat → Option Link) : Link → List Nat → Prop
  | nil : Leads next none []
  | cons {index : Nat} {link : Link} {path : List Nat} (hnext : next index = some link)
      (h : Leads next link path) : Leads next (some index) (index :: path)

namespace Leads

variable {next next' : Nat → Option Link} {link : Link} {path : List Nat}

theorem of_none (h : Leads next none path) : path = [] := by
  cases h
  rfl

/-- A link to a slot passes that slot and goes on with the link in it. -/
theorem of_some {index : Nat} (h : Leads next (some index) path) :
    ∃ link rest, path = index :: rest ∧ next index = some link ∧ Leads next link rest := by
  cases h with
  | cons hnext h => exact ⟨_, _, rfl, hnext, h⟩

/-- A path begins where its link leads. -/
theorem of_cons {index : Nat} {rest : List Nat} (h : Leads next link (index :: rest)) :
    link = some index ∧ ∃ link', next index = some link' ∧ Leads next link' rest := by
  cases h with
  | cons hnext h => exact ⟨rfl, _, hnext, h⟩

/-- The rest of a path is a path. -/
theorem of_append {front rest : List Nat} (h : Leads next link (front ++ rest)) :
    ∃ link', Leads next link' rest := by
  induction front generalizing link with
  | nil => exact ⟨link, h⟩
  | cons index front ih =>
    obtain ⟨-, link', -, hrest⟩ := h.of_cons
    exact ih hrest

/-- Two paths from the same link are the same. -/
theorem unique {path' : List Nat} (h : Leads next link path) (h' : Leads next link path') :
    path = path' := by
  induction h generalizing path' with
  | nil => exact h'.of_none.symm
  | cons hnext _ ih =>
    obtain ⟨link', rest, rfl, hnext', hrest⟩ := h'.of_some
    rw [hnext, Option.some.injEq] at hnext'
    subst hnext'
    rw [ih hrest]

/-- **A path does not come back to a slot it has passed.** -/
theorem nodup (h : Leads next link path) : path.Nodup := by
  induction h with
  | nil => exact List.nodup_nil
  | @cons index link path hnext h ih =>
    refine List.nodup_cons.2 ⟨?_, ih⟩
    intro hmem
    -- the path from the second visit on would be the whole path, which is longer
    obtain ⟨front, rest, rfl⟩ := List.append_of_mem hmem
    obtain ⟨link', hrest⟩ := h.of_append
    obtain ⟨rfl, -⟩ := hrest.of_cons
    have hlength := congrArg List.length (hrest.unique (Leads.cons hnext h))
    simp at hlength
    omega

/-- A path is kept when the links of its slots are. -/
theorem congr (h : Leads next link path) (hsame : ∀ index ∈ path, next' index = next index) :
    Leads next' link path := by
  induction h with
  | nil => exact .nil
  | cons hnext _ ih =>
    obtain ⟨hhead, hrest⟩ := List.forall_mem_cons.1 hsame
    exact .cons (hhead.trans hnext) (ih hrest)

/-- A slot that is not on the path may get any link. -/
theorem update_of_notMem (h : Leads next link path) {index : Nat} (hmem : index ∉ path)
    (value : Option Link) : Leads (Function.update next index value) link path := by
  refine h.congr ?_
  intro i hi
  rw [Function.update_of_ne]
  intro heq
  subst heq
  exact hmem hi

/-- **Changing the link before a slot takes the slot out of the list.** -/
theorem unlink {front rest : List Nat} {previous index : Nat} {skip : Link}
    (h : Leads next link (front ++ previous :: index :: rest)) (hskip : next index = some skip) :
    Leads (Function.update next previous (some skip)) link (front ++ previous :: rest) := by
  induction front generalizing link with
  | nil =>
    have hnodup := h.nodup
    obtain ⟨rfl, link₁, -, hindex⟩ := h.of_cons
    obtain ⟨rfl, link₂, hlink₂, hrest⟩ := hindex.of_cons
    rw [hskip, Option.some.injEq] at hlink₂
    subst hlink₂
    refine .cons (Function.update_self ..) (hrest.update_of_notMem ?_ _)
    simp only [List.nil_append, List.nodup_cons, List.mem_cons, not_or] at hnodup
    exact hnodup.1.2
  | cons first front ih =>
    have hnodup := h.nodup
    obtain ⟨rfl, link₁, hlink₁, hfront⟩ := h.of_cons
    have hne : first ≠ previous := by
      intro heq
      subst heq
      simp at hnodup
    exact .cons ((Function.update_of_ne hne ..).trans hlink₁) (ih hfront)

end Leads
end RespStore
