import Mathlib.Data.List.Basic
import Mathlib.Data.List.Perm.Basic
import Mathlib.Logic.Relation

/-!
# A channel that may lose but not reorder

What a bounded pipeline promises its users: whatever goes in comes out at most
once and in order, or is lost on the way. The channel keeps four lists: what was
accepted, what is still inside, what was delivered and what was lost. Items enter
at the back and are delivered from the front; any item inside may be lost.

`Inv.order` is the first-in first-out promise, and it does not depend on where
losses strike. `Inv.conserve` says nothing vanishes without a record. Where items are
only known by their numbers, `filterMap_getElem?_sublist` says when they are in order.
-/

namespace LossyFifo

/-- The channel's four ledgers, each oldest first. -/
structure Chan (α : Type) where
  accepted : List α
  pending : List α
  delivered : List α
  dropped : List α

variable {α : Type}

/-- Nothing has entered yet. -/
def Chan.empty : Chan α := ⟨[], [], [], []⟩

/-- One step of the channel. -/
inductive Step : Chan α → Chan α → Prop where
  | send (c : Chan α) (a : α) :
      Step c { c with accepted := c.accepted ++ [a], pending := c.pending ++ [a] }
  | deliver (c : Chan α) (a : α) (rest : List α) : c.pending = a :: rest →
      Step c { c with pending := rest, delivered := c.delivered ++ [a] }
  | drop (c : Chan α) (a : α) (before after : List α) : c.pending = before ++ a :: after →
      Step c { c with pending := before ++ after, dropped := c.dropped ++ [a] }

/-- What holds of the channel at any time. -/
structure Inv (c : Chan α) : Prop where
  /-- What came out, followed by what may still come out, is in the order of entry. -/
  order : (c.delivered ++ c.pending).Sublist c.accepted
  /-- Every item that entered is in exactly one of the other three ledgers. -/
  conserve : c.accepted.Perm (c.delivered ++ (c.dropped ++ c.pending))

theorem inv_empty : Inv (Chan.empty : Chan α) := ⟨List.nil_sublist _, List.Perm.nil⟩

theorem inv_step {c c' : Chan α} (h : Inv c) (hs : Step c c') : Inv c' := by
  cases hs with
  | send a =>
      refine ⟨?_, ?_⟩
      · show (c.delivered ++ (c.pending ++ [a])).Sublist (c.accepted ++ [a])
        rw [← List.append_assoc]
        exact h.order.append (List.Sublist.refl _)
      · show (c.accepted ++ [a]).Perm (c.delivered ++ (c.dropped ++ (c.pending ++ [a])))
        rw [← List.append_assoc c.dropped, ← List.append_assoc]
        exact h.conserve.append_right [a]
  | deliver a rest hp =>
      refine ⟨?_, ?_⟩
      · show ((c.delivered ++ [a]) ++ rest).Sublist c.accepted
        have := h.order
        rwa [hp, List.append_cons] at this
      · show c.accepted.Perm ((c.delivered ++ [a]) ++ (c.dropped ++ rest))
        have := h.conserve
        rw [hp] at this
        refine this.trans ?_
        rw [List.append_assoc]
        exact List.Perm.append_left _ List.perm_middle
  | drop a before after hp =>
      refine ⟨?_, ?_⟩
      · show (c.delivered ++ (before ++ after)).Sublist c.accepted
        have := h.order
        rw [hp] at this
        refine List.Sublist.trans ?_ this
        exact (List.Sublist.refl _).append ((List.Sublist.refl _).append (List.sublist_cons_self _ _))
      · show c.accepted.Perm (c.delivered ++ ((c.dropped ++ [a]) ++ (before ++ after)))
        have := h.conserve
        rw [hp] at this
        refine this.trans (List.Perm.append_left _ ?_)
        rw [List.append_assoc]
        exact List.Perm.append_left _ List.perm_middle

/-- **The promise holds along every run of the channel.** -/
theorem inv_reachable {c : Chan α} (h : Relation.ReflTransGen Step Chan.empty c) : Inv c := by
  induction h with
  | refl => exact inv_empty
  | tail _ hs ih => exact inv_step ih hs

/-- Items with distinct names are delivered at most once each, and never also lost. -/
theorem Inv.nodup {c : Chan α} (h : Inv c) (hn : c.accepted.Nodup) :
    c.delivered.Nodup ∧ c.dropped.Nodup ∧ c.delivered.Disjoint c.dropped := by
  have hall : (c.delivered ++ (c.dropped ++ c.pending)).Nodup := h.conserve.nodup_iff.mp hn
  obtain ⟨hd, hrest, hdisj⟩ := List.nodup_append.mp hall
  refine ⟨hd, (List.nodup_append.mp hrest).1, fun a ha hb => ?_⟩
  exact hdisj a ha a (List.mem_append_left _ hb) rfl

/-- An item that entered and is no longer inside was delivered or lost. -/
theorem Inv.delivered_or_dropped {c : Chan α} (h : Inv c) {a : α} (ha : a ∈ c.accepted)
    (hout : a ∉ c.pending) : a ∈ c.delivered ∨ a ∈ c.dropped := by
  have hmem := h.conserve.mem_iff.mp ha
  rw [List.mem_append, List.mem_append] at hmem
  rcases hmem with hd | hd | hp
  · exact Or.inl hd
  · exact Or.inr hd
  · exact absurd hp hout

/-! ## Items by number -/

/-- **Items taken by increasing numbers are a part of the list, in its order.** -/
theorem filterMap_getElem?_sublist (xs : List α) {ks : List Nat} (h : ks.Pairwise (· < ·)) :
    (ks.filterMap (xs[·]?)).Sublist xs := by
  suffices hfrom : ∀ n, (∀ k ∈ ks, n ≤ k) → (ks.filterMap (xs[·]?)).Sublist (xs.drop n) from
    hfrom 0 fun k _ => Nat.zero_le k
  induction ks with
  | nil => exact fun n _ => List.nil_sublist _
  | cons k ks ih =>
      intro n hn
      obtain ⟨hlater, hks⟩ := List.pairwise_cons.mp h
      have hnk : n ≤ k := hn k (List.mem_cons_self ..)
      by_cases hk : k < xs.length
      · -- the item is the first one of what is left from its place on
        rw [List.filterMap_cons_some (List.getElem?_eq_getElem hk)]
        refine List.Sublist.trans ?_ (List.drop_sublist_drop_left xs hnk)
        rw [List.drop_eq_getElem_cons hk]
        exact (ih hks (k + 1) hlater).cons_cons _
      · rw [List.filterMap_cons_none (List.getElem?_eq_none (Nat.le_of_not_lt hk))]
        exact ih hks n fun k' hk' => hn k' (List.mem_cons_of_mem k hk')

end LossyFifo
