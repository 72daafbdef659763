import Mathlib.Data.List.Basic

/-!
# Resources that are closed in the reverse order

A log of what was opened and closed goes with the stack of what is open: what is opened
is new and is put on top, and only what is on top is closed.

## What is proved

* `Lifo.mem_iff` — what is open is what was opened and not closed.
* `Lifo.nodup` — nothing is opened twice, and nothing is closed twice.
-/

namespace FirelinkNet.Lib

/-- An entry of a log. -/
inductive Access (α : Type) where
  /-- It was opened. -/
  | opened (a : α)
  /-- It was closed. -/
  | closed (a : α)
  deriving DecidableEq, Repr

/-- The log is one of resources closed in the reverse order, and `live` are those still open, the last one
first. -/
inductive Lifo {α : Type} : List (Access α) → List α → Prop
  /-- Nothing was opened. -/
  | nil : Lifo [] []
  /-- A new one is opened. -/
  | opened {log : List (Access α)} {live : List α} {a : α} :
      Lifo log live → .opened a ∉ log → Lifo (log ++ [.opened a]) (a :: live)
  /-- The last one is closed. -/
  | closed {log : List (Access α)} {live : List α} {a : α} :
      Lifo log (a :: live) → Lifo (log ++ [.closed a]) live

namespace Lifo

variable {α : Type} {log : List (Access α)} {live : List α} {a : α}

/-- What is closed was opened. -/
theorem opened_of_closed (h : Lifo log live) : (∀ a ∈ live, .opened a ∈ log) ∧
    ∀ a, .closed a ∈ log → .opened a ∈ log := by
  induction h with
  | nil => exact ⟨nofun, nofun⟩
  | opened _ _ ih => grind
  | closed _ ih => grind

/-- What is open is not closed, and is open once. -/
theorem live_nodup (h : Lifo log live) : live.Nodup ∧ ∀ a ∈ live, .closed a ∉ log := by
  induction h with
  | nil => exact ⟨List.nodup_nil, nofun⟩
  | opened h _ ih =>
    have := h.opened_of_closed
    grind
  | closed _ ih => grind

/-- **What is open is what was opened and not closed.** -/
theorem mem_iff (h : Lifo log live) : a ∈ live ↔ .opened a ∈ log ∧ .closed a ∉ log := by
  induction h with
  | nil => simp
  | opened h hne ih =>
    have := h.opened_of_closed
    grind
  | closed h ih =>
    have := h.live_nodup
    grind

/-- **Nothing is opened twice, and nothing is closed twice.** -/
theorem nodup (h : Lifo log live) : log.Nodup := by
  induction h with
  | nil => exact List.nodup_nil
  | opened _ hne ih => grind
  | closed h ih =>
    have := h.live_nodup
    grind

end Lifo

end FirelinkNet.Lib
