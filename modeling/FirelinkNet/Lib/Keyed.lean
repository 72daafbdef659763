import Mathlib.Data.List.Basic
import Mathlib.Data.List.Nodup

/-!
# Queues of keyed entries

A queue whose entries may carry a key, no key twice. `Keyed key xs R` says of a queue
`xs` that `R i x` names the entry `x` with key `i` exactly when it is in the queue:
what is known elsewhere about the whereabouts of a key agrees with the queue. The rules
say what an append, a removal at any position, and a filter do to both; `update_of_not`
is for the whereabouts that a move leaves as they are.
-/

namespace FirelinkNet.Lib

variable {α κ : Type} {key : α → Option κ} {xs : List α} {R R' : κ → α → Prop} {x : α} {i : κ} {k : ℕ}

/-- The entries with a key have distinct ones, and `R` says which entry has which. -/
structure Keyed (key : α → Option κ) (xs : List α) (R : κ → α → Prop) : Prop where
  mem : ∀ i x, R i x ↔ x ∈ xs ∧ key x = some i
  nodup : (xs.filterMap key).Nodup

/-- Where a key that moves was not, and is not. -/
theorem update_of_not {κ β : Type} [DecidableEq κ] {pl : κ → β} {i : κ} {p' : β} {P : β → Prop}
    (h : ¬ P (pl i)) (h' : ¬ P p') (i' : κ) : P (Function.update pl i p' i') ↔ P (pl i') := by
  by_cases hi : i' = i
  · subst hi
    rw [Function.update_self]
    exact ⟨fun h'' => absurd h'' h', fun h'' => absurd h'' h⟩
  · rw [Function.update_of_ne hi]

theorem exists_append_of_getElem? (h : xs[k]? = some x) :
    ∃ l₁ l₂, xs = l₁ ++ x :: l₂ ∧ xs.eraseIdx k = l₁ ++ l₂ := by
  obtain ⟨hlt, hx⟩ := List.getElem?_eq_some_iff.mp h
  refine ⟨xs.take k, xs.drop (k + 1), ?_, List.eraseIdx_eq_take_drop_succ xs k⟩
  rw [← hx, List.getElem_cons_drop, List.take_append_drop]

namespace Keyed

theorem congr (h : Keyed key xs R) (hR : ∀ i x, R' i x ↔ R i x) : Keyed key xs R' :=
  ⟨fun i x => (hR i x).trans (h.mem i x), h.nodup⟩

/-- An entry is appended whose key is not in the queue. -/
theorem push (h : Keyed key xs R) (hx : key x = some i) (hn : ∀ y, ¬ R i y)
    (hR : ∀ i' y, R' i' y ↔ R i' y ∨ i' = i ∧ y = x) : Keyed key (xs ++ [x]) R' := by
  refine ⟨fun i' y => ?_, ?_⟩
  · rw [hR, h.mem, List.mem_append, List.mem_singleton, or_and_right]
    refine or_congr_right ⟨?_, ?_⟩
    · rintro ⟨rfl, rfl⟩
      exact ⟨rfl, hx⟩
    · rintro ⟨rfl, hy⟩
      exact ⟨Option.some.inj (hy.symm.trans hx), rfl⟩
  · rw [List.filterMap_append, List.filterMap_cons_some hx, List.filterMap_nil, List.nodup_append]
    refine ⟨h.nodup, List.nodup_singleton i, ?_⟩
    rintro a ha b hb rfl
    obtain ⟨y, hy, hk⟩ := List.mem_filterMap.mp ha
    rw [List.mem_singleton.mp hb] at hk
    exact hn y ((h.mem i y).mpr ⟨hy, hk⟩)

/-- An entry is appended that has no key. -/
theorem push_none (h : Keyed key xs R) (hx : key x = none) : Keyed key (xs ++ [x]) R := by
  refine ⟨fun i y => ?_, ?_⟩
  · rw [h.mem, List.mem_append, List.mem_singleton, or_and_right]
    refine (or_iff_left ?_).symm
    rintro ⟨rfl, hy⟩
    rw [hx] at hy
    cases hy
  · rw [List.filterMap_append, List.filterMap_cons_none hx, List.filterMap_nil, List.append_nil]
    exact h.nodup

theorem of_getElem? (h : Keyed key xs R) (hk : xs[k]? = some x) (hx : key x = some i) : R i x :=
  (h.mem i x).mpr ⟨List.mem_of_getElem? hk, hx⟩

/-- The entry at some position is removed. -/
theorem pop (h : Keyed key xs R) (hk : xs[k]? = some x) (hx : key x = some i)
    (hR : ∀ i' y, R' i' y ↔ R i' y ∧ i' ≠ i) : Keyed key (xs.eraseIdx k) R' := by
  obtain ⟨l₁, l₂, rfl, he⟩ := exists_append_of_getElem? hk
  have hn := h.nodup
  rw [List.filterMap_append, List.filterMap_cons_some hx, List.nodup_middle, List.nodup_cons,
    ← List.filterMap_append] at hn
  rw [he]
  refine ⟨fun i' y => ?_, hn.2⟩
  rw [hR, h.mem]
  constructor
  · rintro ⟨⟨hy, hyk⟩, hne⟩
    refine ⟨?_, hyk⟩
    rcases List.mem_append.mp hy with hy | hy
    · exact List.mem_append_left _ hy
    · rcases List.mem_cons.mp hy with rfl | hy
      · exact absurd (Option.some.inj (hyk.symm.trans hx)) hne
      · exact List.mem_append_right _ hy
  · rintro ⟨hy, hyk⟩
    refine ⟨⟨?_, hyk⟩, ?_⟩
    · rcases List.mem_append.mp hy with hy | hy
      · exact List.mem_append_left _ hy
      · exact List.mem_append_right _ (List.mem_cons_of_mem _ hy)
    · rintro rfl
      exact hn.1 (List.mem_filterMap.mpr ⟨y, hy, hyk⟩)

/-- The entry at some position is removed, and has no key. -/
theorem pop_none (h : Keyed key xs R) (hk : xs[k]? = some x) (hx : key x = none) :
    Keyed key (xs.eraseIdx k) R := by
  obtain ⟨l₁, l₂, rfl, he⟩ := exists_append_of_getElem? hk
  have hn := h.nodup
  rw [List.filterMap_append, List.filterMap_cons_none hx, ← List.filterMap_append] at hn
  rw [he]
  refine ⟨fun i y => ?_, hn⟩
  rw [h.mem, List.mem_append, List.mem_append, List.mem_cons]
  constructor
  · rintro ⟨hy | rfl | hy, hyk⟩
    · exact ⟨.inl hy, hyk⟩
    · rw [hx] at hyk
      cases hyk
    · exact ⟨.inr hy, hyk⟩
  · rintro ⟨hy | hy, hyk⟩
    · exact ⟨.inl hy, hyk⟩
    · exact ⟨.inr (.inr hy), hyk⟩

/-- Some entries are discarded. -/
theorem filter (h : Keyed key xs R) (p : α → Bool) (hR : ∀ i y, R' i y ↔ R i y ∧ p y = true) :
    Keyed key (xs.filter p) R' := by
  refine ⟨fun i y => ?_, h.nodup.sublist (List.filter_sublist.filterMap key)⟩
  rw [hR, h.mem, List.mem_filter]
  tauto

end Keyed

end FirelinkNet.Lib
