import Mathlib.Data.Nat.Notation
import Mathlib.Data.List.Basic

/-! # A store and the log of its writes

Contents are stored under keys that are computed from them. A write may leave less than what it was
offered. What the store holds under a key is what the last write there left, so the contents belong
to their keys exactly when every last write left one that does. -/
namespace GoLib
set_option autoImplicit false

/-- What a write was offered for a key, and what it left there. -/
structure Write (Key Content : Type) where
  key : Key
  offered : Content
  written : Content
  deriving DecidableEq

namespace WriteLog
variable {Key Content : Type} [DecidableEq Key]

def last (log : List (Write Key Content)) (k : Key) : Option (Write Key Content) :=
  (log.filter fun w => w.key = k).getLast?

theorem last_nil (k : Key) : last ([] : List (Write Key Content)) k = none := rfl

theorem last_concat_self (log : List (Write Key Content)) (w : Write Key Content) :
    last (log ++ [w]) w.key = some w := by
  simp [last]

theorem last_concat_of_ne (log : List (Write Key Content)) {w : Write Key Content} {k : Key}
    (h : w.key ≠ k) : last (log ++ [w]) k = last log k := by
  simp [last, h]

theorem mem_of_last {log : List (Write Key Content)} {k : Key} {w : Write Key Content}
    (h : last log k = some w) : w ∈ log ∧ w.key = k := by
  simpa using List.mem_filter.mp (List.mem_of_getLast? h)

/-- The store holds what its log says, and whatever was offered for a key belongs there. -/
structure Records (hash : Content → Key) (log : List (Write Key Content))
    (lookup : Key → Option Content) : Prop where
  lookup_eq : ∀ x, lookup (hash x) = (last log (hash x)).map Write.written
  offered : ∀ w ∈ log, hash w.offered = w.key

/-- Whatever is found under the key of a content has that key. -/
def Addressed (hash : Content → Key) (lookup : Key → Option Content) : Prop :=
  ∀ x c, lookup (hash x) = some c → hash c = hash x

variable {hash : Content → Key} {log : List (Write Key Content)}
  {lookup lookup' : Key → Option Content}

theorem Records.nil (h : ∀ x, lookup (hash x) = none) : Records hash [] lookup :=
  ⟨fun x => by rw [h, last_nil, Option.map_none], fun _ hw => absurd hw List.not_mem_nil⟩

theorem Records.congr (hr : Records hash log lookup)
    (h : ∀ x, lookup' (hash x) = lookup (hash x)) : Records hash log lookup' :=
  ⟨fun x => (h x).trans (hr.lookup_eq x), hr.offered⟩

theorem Records.write (hr : Records hash log lookup) {offered written : Content}
    (h : ∀ x, lookup' (hash x) =
      if hash x = hash offered then some written else lookup (hash x)) :
    Records hash (log ++ [⟨hash offered, offered, written⟩]) lookup' where
  lookup_eq x := by
    rw [h]
    by_cases hx : hash x = hash offered
    · rw [if_pos hx, hx, last_concat_self log ⟨hash offered, offered, written⟩, Option.map_some]
    · rw [if_neg hx, last_concat_of_ne log (w := ⟨hash offered, offered, written⟩) (Ne.symm hx)]
      exact hr.lookup_eq x
  offered w hw := by
    rcases List.mem_append.mp hw with hw | hw
    · exact hr.offered w hw
    · rw [List.mem_singleton] at hw
      subst hw
      rfl

/-- **What makes a store addressed**: every last write left something with the key of what it was
offered. -/
theorem Records.addressed_iff (hr : Records hash log lookup) :
    Addressed hash lookup ↔
      ∀ x w, last log (hash x) = some w → hash w.written = hash w.offered := by
  have hkey : ∀ {x w}, last log (hash x) = some w → hash w.offered = hash x := fun h =>
    (hr.offered _ (mem_of_last h).1).trans (mem_of_last h).2
  constructor
  · intro h x w hw
    refine (h x w.written ?_).trans (hkey hw).symm
    rw [hr.lookup_eq, hw, Option.map_some]
  · intro h x c hc
    rw [hr.lookup_eq, Option.map_eq_some_iff] at hc
    obtain ⟨w, hw, rfl⟩ := hc
    exact (h x w hw).trans (hkey hw)

end WriteLog
end GoLib
